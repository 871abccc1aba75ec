import Mathlib.Data.List.Basic
import Mathlib.Tactic.Ring

/-!
# Little-Endian Bytes and Buffers

Fixed-width little-endian encodings of natural numbers, and the buffers of
fixed size they are stored in.

A packed record in memory is a run of bytes read through several overlapping
views. Writing one view and reading another is a question about ranges: a read
that lies inside the written range sees the written bytes, and one that lies
outside sees what was there before. `slice_write_inside`, `slice_write_before`
and `slice_write_after` are those three cases, and every fact about a union of
records follows from them and from the round trip of the encoding.

## Main definitions

* `leBytes`: The low bytes of a number, least significant first.
* `leNat`: The number with the given bytes, least significant first.
* `Buffer`: A block of bytes of a fixed size.
* `Buffer.write`: Copying bytes into a buffer at an offset.
* `Buffer.slice`: The bytes of a buffer from an offset on.

## Theorems

* `length_leBytes`: An encoding has its width.
* `leNat_leBytes`: Decoding an encoding keeps the low bytes.
* `leNat_leBytes_of_lt`: A number that fits its width is kept.
* `leNat_lt`: A decoded number fits the width of its bytes.
* `leBytes_leNat`: Encoding a decoded list gives it back.
* `leNat_append`: The bytes of a second list are worth more.
* `Buffer.length_slice`: A slice inside the buffer has its length.
* `Buffer.slice_write_inside`: Reading inside what was written.
* `Buffer.slice_write_before`: Reading before what was written.
* `Buffer.slice_write_after`: Reading after what was written.
-/

namespace ByteCodec

/-- The `w` low bytes of `n`, least significant first. -/
def leBytes : Nat → Nat → List UInt8
  | 0, _ => []
  | w + 1, n => UInt8.ofNat n :: leBytes w (n / 256)

/-- The number whose bytes are given, least significant first. -/
def leNat : List UInt8 → Nat
  | [] => 0
  | b :: bs => b.toNat + 256 * leNat bs

@[simp] theorem length_leBytes (w n : Nat) : (leBytes w n).length = w := by
  induction w generalizing n with
  | zero => rfl
  | succ w ih => simp only [leBytes, List.length_cons, ih]

theorem leNat_leBytes (w n : Nat) : leNat (leBytes w n) = n % 256 ^ w := by
  induction w generalizing n with
  | zero => simp only [leBytes, leNat, pow_zero, Nat.mod_one]
  | succ w ih =>
      have hlow : (UInt8.ofNat n).toNat = n % 256 := by
        simp only [UInt8.toNat_ofNat', Nat.reducePow]
      rw [leBytes, leNat, ih, hlow, pow_succ', Nat.mod_mul]

theorem leNat_leBytes_of_lt {w n : Nat} (h : n < 256 ^ w) : leNat (leBytes w n) = n := by
  rw [leNat_leBytes, Nat.mod_eq_of_lt h]

theorem leNat_lt (bs : List UInt8) : leNat bs < 256 ^ bs.length := by
  induction bs with
  | nil => simp only [leNat, List.length_nil, pow_zero, Nat.lt_one_iff]
  | cons b bs ih =>
      have hb : b.toNat < 256 := b.toNat_lt
      rw [leNat, List.length_cons, pow_succ]
      omega

/-- Encoding a decoded list at its own width gives the list back. -/
theorem leBytes_leNat (bs : List UInt8) : leBytes bs.length (leNat bs) = bs := by
  induction bs with
  | nil => rfl
  | cons b bs ih =>
      have hb : b.toNat < 256 := b.toNat_lt
      have hdiv : (b.toNat + 256 * leNat bs) / 256 = leNat bs := by omega
      have hlow : UInt8.ofNat (b.toNat + 256 * leNat bs) = b := by
        apply UInt8.toNat_inj.mp
        rw [UInt8.toNat_ofNat']
        omega
      rw [List.length_cons, leBytes, leNat, hdiv, ih, hlow]

theorem leNat_append (bs cs : List UInt8) :
    leNat (bs ++ cs) = leNat bs + 256 ^ bs.length * leNat cs := by
  induction bs with
  | nil => simp only [List.nil_append, leNat, List.length_nil, pow_zero, one_mul, zero_add]
  | cons b bs ih =>
      rw [List.cons_append, leNat, leNat, ih, List.length_cons, pow_succ]
      ring

/-- A block of exactly `n` bytes. -/
structure Buffer (n : Nat) where
  bytes : List UInt8
  size : bytes.length = n

namespace Buffer

variable {n : Nat}

/-- Copy `src` into the buffer at offset `off`. The bytes must fit. -/
def write (b : Buffer n) (off : Nat) (src : List UInt8) (h : off + src.length ≤ n) : Buffer n where
  bytes := b.bytes.take off ++ src ++ b.bytes.drop (off + src.length)
  size := by
    have hb := b.size
    simp only [List.length_append, List.length_take, List.length_drop]
    omega

/-- The `k` bytes of the buffer from offset `off` on. -/
def slice (b : Buffer n) (off k : Nat) : List UInt8 :=
  (b.bytes.drop off).take k

theorem length_slice (b : Buffer n) {off k : Nat} (h : off + k ≤ n) :
    (b.slice off k).length = k := by
  have hb := b.size
  simp only [slice, List.length_take, List.length_drop]
  omega

/-- A read inside the written range sees the written bytes. -/
theorem slice_write_inside (b : Buffer n) {off o k : Nat} {src : List UInt8}
    (h : off + src.length ≤ n) (hlo : off ≤ o) (hhi : o + k ≤ off + src.length) :
    (b.write off src h).slice o k = (src.drop (o - off)).take k := by
  have hb := b.size
  have hlen : (b.bytes.take off).length = off := by
    rw [List.length_take]
    omega
  simp only [slice, write, List.append_assoc]
  rw [List.drop_append, hlen, List.drop_eq_nil_of_le (by omega), List.nil_append,
    List.drop_append_of_le_length (by omega),
    List.take_append_of_le_length (by rw [List.length_drop]; omega)]

/-- A read that ends before the written range sees the old bytes. -/
theorem slice_write_before (b : Buffer n) {off o k : Nat} {src : List UInt8}
    (h : off + src.length ≤ n) (hhi : o + k ≤ off) :
    (b.write off src h).slice o k = b.slice o k := by
  have hb := b.size
  have hlen : (b.bytes.take off).length = off := by
    rw [List.length_take]
    omega
  simp only [slice, write, List.append_assoc]
  rw [List.drop_append_of_le_length (by omega),
    List.take_append_of_le_length (by rw [List.length_drop]; omega),
    List.drop_take, List.take_take, Nat.min_eq_left (by omega)]

/-- A read that begins after the written range sees the old bytes. -/
theorem slice_write_after (b : Buffer n) {off o k : Nat} {src : List UInt8}
    (h : off + src.length ≤ n) (hlo : off + src.length ≤ o) :
    (b.write off src h).slice o k = b.slice o k := by
  have hb := b.size
  have hlen : (b.bytes.take off).length = off := by
    rw [List.length_take]
    omega
  simp only [slice, write]
  rw [List.drop_append, List.length_append, hlen,
    List.drop_eq_nil_of_le (by rw [List.length_append]; omega), List.nil_append, List.drop_drop]
  congr 2
  omega

end Buffer

end ByteCodec
