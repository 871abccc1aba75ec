import Mathlib.Data.Nat.Notation
import Wallclock.Library.Bytes

/-!
# Signatures

The function of `crypto.c` that signs a PDU. CMAC is done by the kernel, over a
socket; `AfAlg` has its answers, `none` where one of the calls on the socket
fails. The kernel wants the most significant octet first and the toolbox keeps it
last, so the function turns its bytes around before it asks and turns the answer
around after that.

## Main definitions

* `AfAlg`: The kernel's answers.
* `swapBuf`: `swap_buf`, bytes in the other order.
* `btCryptoSignAtt`: The signature of a PDU.
-/

namespace Wallclock

open ByteCodec

/-- What the kernel answers to a key and some bytes. -/
structure AfAlg where
  cmacAes : List UInt8 → List UInt8 → Option (List UInt8)
  length_cmacAes : ∀ key data out, cmacAes key data = some out → out.length = 16

/-- `swap_buf`. -/
def swapBuf (src : List UInt8) : List UInt8 := src.reverse

/-- `bt_crypto_sign_att`. The counter, most significant octet first, replaces
    bytes 8 to 11 of the hash; the last four bytes are dropped. -/
def AfAlg.btCryptoSignAtt (crypto : AfAlg) (key m : List UInt8) (signCnt : BitVec 32) :
    Option (List UInt8) := do
  let msg := m ++ leBytes 4 signCnt.toNat
  let out ← crypto.cmacAes (swapBuf key) (swapBuf msg)
  let out := out.take 8 ++ (leBytes 4 signCnt.toNat).reverse ++ out.drop 12
  let tmp := swapBuf out
  some ((tmp.drop 4).take 12)

end Wallclock
