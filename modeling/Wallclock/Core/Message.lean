import Wallclock.Library.Bytes

/-!
# Clock Messages

The messages the clock and the server exchange, from `messages.h`.

`msg_t` is a union of packed records, so one 14-byte buffer is read and
written through several views. Each view is a range of the buffer. The two
bit-fields of a status message share the 16-bit word at offset 2: the battery
voltage takes the low twelve bits and the poll interval the high four, in
GCC's order on a little-endian host.

## Main definitions

* `clkReqFaceTime`, `clkReqTime`, `clkAcceptStatus`: The clock's commands.
* `srvrAcceptFaceTime`, `srvrAcceptTime`, `srvrAcceptDone`: The replies.
* `sizeofMsgSts`, `sizeofMsgU64`, `sizeofMsgU8`: The sizes of the views.
* `Msg`: The union buffer `msg_t`.
* `Msg.memcpy`: The copy of a received command into the union.
* `Msg.u8Cmd`: The command byte.
* `Msg.stsTimeouts`, `Msg.stsBattery`, `Msg.stsInterval`, `Msg.stsMatch`,
  `Msg.stsOffset`: The fields of the status view.
* `Msg.setCmd`, `Msg.setU64Data`: Writing the reply views.
-/

namespace Wallclock

open ByteCodec

def clkReqFaceTime : Nat := 1
def clkReqTime : Nat := 2
def clkAcceptStatus : Nat := 3

def srvrAcceptFaceTime : Nat := 1
def srvrAcceptTime : Nat := 2
def srvrAcceptDone : Nat := 3

def sizeofMsgSts : Nat := 14
def sizeofMsgU64 : Nat := 9
def sizeofMsgU8 : Nat := 1

/-- The union `msg_t`, as large as its largest member. -/
abbrev Msg := Buffer sizeofMsgSts

namespace Msg

/-- `memcpy(&m, cmd, len)` after `len` is clamped to the size of the union. -/
def memcpy (m : Msg) (cmd : List UInt8) : Msg :=
  m.write 0 (cmd.take sizeofMsgSts)
    (by rw [Nat.zero_add, List.length_take]; exact Nat.min_le_left _ _)

def u8Cmd (m : Msg) : Nat := leNat (m.slice 0 1)

def stsTimeouts (m : Msg) : Nat := leNat (m.slice 1 1)

def stsBattery (m : Msg) : Nat := leNat (m.slice 2 2) % 2 ^ 12

def stsInterval (m : Msg) : Nat := leNat (m.slice 2 2) / 2 ^ 12

def stsMatch (m : Msg) : Nat := leNat (m.slice 4 2)

def stsOffset (m : Msg) : Nat := leNat (m.slice 6 8)

/-- All four views start with the command byte. -/
def setCmd (m : Msg) (cmd : Nat) : Msg :=
  m.write 0 (leBytes 1 cmd) (by rw [length_leBytes]; decide)

def setU64Data (m : Msg) (data : BitVec 64) : Msg :=
  m.write 1 (leBytes 8 data.toNat) (by rw [length_leBytes]; decide)

end Msg

end Wallclock
