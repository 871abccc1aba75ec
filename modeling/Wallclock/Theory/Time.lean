import Wallclock.Library.FixedPoint
import Wallclock.Theory.Command

/-!
# The Time of Day

What `get_time` returns.

It is the local time in units of 1/256 s, computed in 64 bits from three
readings: the seconds and nanoseconds of the system clock, and the offset of
the zone. `getTime_eq` says that it is the fixed-point number of the sum,
modulo 2 ^ 64, and everything else is arithmetic of fixed-point numbers.

Within the range of a clock nothing is lost: `getTime_exact` gives the value,
its parts, and what it says about order and resolution.

The offset is that of another reading of the clock, made before the one whose
seconds are returned. `oneInstant_iff` says when that makes no difference: the
zone has the same offset at both, up to what the shift forgets.

## Main definitions

* `Clock.InRange`: The readings of a clock, at a zone offset.
* `Clock.nanos`: The reading in nanoseconds.
* `EncodesExactly`: The local time is encoded without loss.
* `OneInstant`: The result is the local time of the precise reading.
* `Clock.beforeHour`, `Clock.transition`: Sample readings.

## Theorems

* `fraction_eq`: The fraction of a second.
* `getTime_eq`: The result as a fixed-point number.
* `getTime_toNat`: The same in range, without a modulus.
* `encodesExactly_of_inRange`: Each part of the result.
* `getTime_mono`, `getTime_separates`: Order and resolution.
* `getTime_exact`: All of it.
* `getTime_exact_negative`: A negative offset.
* `oneInstant_iff`: When both readings of the clock agree.
* `oneInstant_beforeHour`: Readings that agree.
* `transition_between_readings`: Readings that do not.
-/

namespace Wallclock

open ByteCodec Word

/-- The readings are those of a clock, at the zone offset `g`. -/
structure Clock.InRange (clock : Clock) (g : ℤ) : Prop where
  sec : clock.tvSec.toNat < 2 ^ 54
  nsec : clock.tvNsec.toNat < 10 ^ 9
  offset : (clock.gmtoff clock.time).toInt = g
  bound : |g| ≤ 86400
  localSec : 0 ≤ clock.tvSec.toNat + g

def Clock.nanos (clock : Clock) : ℤ := clock.tvSec.toNat * 10 ^ 9 + clock.tvNsec.toNat

/-- The local time at the zone offset `g` is encoded without loss. -/
structure EncodesExactly (clock : Clock) (g : ℤ) : Prop where
  value : ((getTime clock).toNat : ℤ)
    = 256 * (clock.tvSec.toNat + g) + (256 * clock.tvNsec.toNat / 10 ^ 9 : ℕ)
  /-- The fraction does not carry into the seconds. -/
  fraction : ((clock.tvNsec <<< 8) / 1000000000#64).toNat ≤ 255
  /-- The upper bits are the local seconds. -/
  seconds : ((getTime clock >>> 8).toNat : ℤ) = clock.tvSec.toNat + g
  /-- No shift loses bits. -/
  secShift : (clock.tvSec <<< 8).toNat = 256 * clock.tvSec.toNat
  nsecShift : (clock.tvNsec <<< 8).toNat = 256 * clock.tvNsec.toNat
  offsetShift : (clock.gmtoff clock.time <<< 8).toInt = 256 * g

section Exact

variable {clock clock' : Clock} {g : ℤ}

/-- The fraction that `get_time` computes. -/
theorem fraction_eq (hnsec : clock.tvNsec.toNat < 10 ^ 9) :
    ((clock.tvNsec <<< 8) / 1000000000#64).toNat = 256 * clock.tvNsec.toNat / 10 ^ 9 := by
  rw [BitVec.toNat_udiv, toNat_shiftLeft_of_lt (by omega)]
  rfl

/-- The result is the local time as a fixed-point number, modulo 2 ^ 64. -/
theorem getTime_eq (hnsec : clock.tvNsec.toNat < 10 ^ 9) :
    getTime clock = BitVec.ofInt 64 (fixedPoint 8
      (clock.tvSec.toInt + (clock.gmtoff clock.time).toInt) clock.tvNsec.toNat (10 ^ 9)) := by
  have hfraction : (clock.tvNsec <<< 8) / 1000000000#64
      = BitVec.ofInt 64 (2 ^ 8 * clock.tvNsec.toNat / 10 ^ 9 : ℕ) := by
    apply BitVec.eq_of_toNat_eq
    rw [fraction_eq hnsec, BitVec.ofInt_natCast, BitVec.toNat_ofNat, Nat.mod_eq_of_lt (by omega)]
    rfl
  rw [getTime, hfraction, shiftLeft_eq_ofInt, shiftLeft_eq_ofInt, ← BitVec.ofInt_add,
    ← BitVec.ofInt_add, fixedPoint]
  congr 1
  ring

theorem getTime_toNat (h : clock.InRange g) : ((getTime clock).toNat : ℤ)
    = fixedPoint 8 (clock.tvSec.toNat + g) clock.tvNsec.toNat (10 ^ 9) := by
  have hsec : clock.tvSec.toInt = clock.tvSec.toNat :=
    BitVec.toInt_eq_toNat_of_lt (by have := h.sec; omega)
  have hfrac := fraction_lt (k := 8) h.nsec
  have hbound := abs_le.mp h.bound
  have hsecs := h.sec
  have hlocal := h.localSec
  rw [getTime_eq h.nsec, h.offset, hsec]
  refine toNat_ofInt_of_lt ?_ ?_
  · rw [fixedPoint]
    omega
  · rw [fixedPoint]
    omega

theorem encodesExactly_of_inRange (h : clock.InRange g) : EncodesExactly clock g := by
  have hsec := h.sec
  have hnsec := h.nsec
  have hbound := abs_le.mp h.bound
  have hvalue := getTime_toNat h
  refine ⟨hvalue, ?_, ?_, toNat_shiftLeft_of_lt (by omega), toNat_shiftLeft_of_lt (by omega), ?_⟩
  · rw [fraction_eq h.nsec]
    omega
  · have hdiv : fixedPoint 8 (clock.tvSec.toNat + g) clock.tvNsec.toNat (10 ^ 9) / 2 ^ 8
        = clock.tvSec.toNat + g := fixedPoint_div h.nsec
    rw [BitVec.toNat_ushiftRight, Nat.shiftRight_eq_div_pow]
    omega
  · rw [shiftLeft_eq_ofInt, h.offset, BitVec.toInt_ofInt_eq_self (by decide) (by omega) (by omega)]
    rfl

/-- A later reading never gets an earlier time. -/
theorem getTime_mono (h : clock.InRange g) (h' : clock'.InRange g)
    (hle : clock.nanos ≤ clock'.nanos) : getTime clock ≤ getTime clock' := by
  have hfixed : fixedPoint 8 (clock.tvSec.toNat + g) clock.tvNsec.toNat (10 ^ 9)
      ≤ fixedPoint 8 (clock'.tvSec.toNat + g) clock'.tvNsec.toNat (10 ^ 9) := by
    refine fixedPoint_mono (by decide) ?_
    unfold Clock.nanos at hle
    push_cast
    omega
  rw [← getTime_toNat h, ← getTime_toNat h'] at hfixed
  rw [BitVec.le_def]
  omega

/-- Readings at least 1/256 s apart get different times. -/
theorem getTime_separates (h : clock.InRange g) (h' : clock'.InRange g)
    (hapart : 10 ^ 9 ≤ 256 * (clock'.nanos - clock.nanos)) : getTime clock ≠ getTime clock' := by
  have hfixed : fixedPoint 8 (clock.tvSec.toNat + g) clock.tvNsec.toNat (10 ^ 9)
      < fixedPoint 8 (clock'.tvSec.toNat + g) clock'.tvNsec.toNat (10 ^ 9) := by
    refine fixedPoint_lt (by decide) ?_
    unfold Clock.nanos at hapart
    push_cast
    omega
  intro heq
  rw [← getTime_toNat h, ← getTime_toNat h', heq] at hfixed
  exact absurd hfixed (lt_irrefl _)

end Exact

/-- Within the range of a clock the local time is encoded without loss, later
    readings at the same offset do not get earlier times, and readings at
    least 1/256 s apart get different ones. -/
theorem getTime_exact (g : ℤ) (clock : Clock) (h : clock.InRange g) :
    EncodesExactly clock g ∧ ∀ clock' : Clock, clock'.InRange g →
      (clock.nanos ≤ clock'.nanos → getTime clock ≤ getTime clock') ∧
      (10 ^ 9 ≤ 256 * (clock'.nanos - clock.nanos) → getTime clock ≠ getTime clock') :=
  ⟨encodesExactly_of_inRange h, fun _ h' => ⟨getTime_mono h h', getTime_separates h h'⟩⟩

/-- The last nanosecond of 1970-01-01 02:59:59 in a zone one hour behind. -/
def Clock.beforeHour : Clock := ⟨14399, fun _ => BitVec.ofInt 64 (-3600), 14399, 999999999⟩

/-- The fraction is as large as it gets, and the offset is negative. -/
theorem getTime_exact_negative : EncodesExactly .beforeHour (-3600) ∧
    getTime .beforeHour ≤ getTime { Clock.beforeHour with tvSec := 14400, tvNsec := 0 } ∧
    getTime .beforeHour ≠
      getTime { Clock.beforeHour with tvSec := 14400, tvNsec := 999999999 } := by
  have hrange : Clock.beforeHour.InRange (-3600) :=
    ⟨by decide, by decide, by decide, by decide, by decide⟩
  have hexact := getTime_exact (-3600) .beforeHour hrange
  refine ⟨hexact.1, (hexact.2 _ ⟨?_, ?_, ?_, ?_, ?_⟩).1 ?_, (hexact.2 _ ⟨?_, ?_, ?_, ?_, ?_⟩).2 ?_⟩
  all_goals decide

/-- The result is the local time of the instant whose seconds and nanoseconds
    were read. -/
def OneInstant (clock : Clock) : Prop :=
  getTime clock = BitVec.ofInt 64 (fixedPoint 8
    (clock.tvSec.toInt + (clock.gmtoff clock.tvSec).toInt) clock.tvNsec.toNat (10 ^ 9))

/-- The result is the local time of one instant exactly if the zone has the
    same offset at both readings of the clock, modulo 2 ^ 56. -/
theorem oneInstant_iff (clock : Clock) (hnsec : clock.tvNsec.toNat < 10 ^ 9) :
    OneInstant clock ↔ (clock.gmtoff clock.time).toInt % 2 ^ 56
      = (clock.gmtoff clock.tvSec).toInt % 2 ^ 56 := by
  rw [OneInstant, getTime_eq hnsec, ofInt_eq_iff, fixedPoint, fixedPoint]
  generalize (clock.gmtoff clock.time).toInt = x
  generalize (clock.gmtoff clock.tvSec).toInt = y
  omega

/-- A zone that goes from one hour to two at second 1000, between the reading
    of the offset and that of the seconds. -/
def Clock.transition : Clock :=
  ⟨999, fun t => if t.toNat < 1000 then 3600 else 7200, 1000, 0⟩

theorem oneInstant_beforeHour : OneInstant .beforeHour :=
  (oneInstant_iff .beforeHour (by decide)).mpr rfl

/-- The local time is off by an hour. -/
theorem transition_between_readings :
    Clock.transition.time.toInt ≤ Clock.transition.tvSec.toInt ∧
    getTime .transition = 256 * (1000 + 3600) ∧ ¬OneInstant .transition := by
  refine ⟨by decide, by decide, ?_⟩
  unfold OneInstant
  decide

end Wallclock
