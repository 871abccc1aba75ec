import Wallclock.Core.ClockFace
import Wallclock.Library.FixedPoint

/-!
# Accepting the Face Time Argument

Which arguments `get_clock_face_time` accepts, and what it stores for them.

The three numbers are read by `sscanf`. Its language is wider than that of
clock times: `sscanf_faceTimeFormat_iff` says that a number may have blanks and
a sign before it, that it counts modulo 2 ^ 32, and that nothing is asked of
the text behind the last one. `ScansAs` is that language with the three range
checks, and `getClockFaceTime_eq` reduces the function to it: an argument that
scans is always accepted, since the result of `mktime` is not looked at, and
any other leaves `*t` as it was.

`mktime` finds an instant for the time that was typed, and an offset is added
back to it, which gives the time that was typed where it is the offset `mktime`
used. `acceptsExactly_iff` puts the two together. The function does what its
callers expect exactly where an argument that scans is a clock time, and both
the conversion and the order of evaluation leave it at the current offset.

## Main definitions

* `IsClockTime`: A clock time, and the numbers in it.
* `Zone.today`, `Zone.requested`, `Zone.converted`: The local date, the local
  time that is asked for, and the instant `mktime` finds for it.
* `EvalOrder.gmtoff`, `faceSum`: The offset that is added, and the sum.
* `faceArg`: The numbers an argument is accepted with.
* `ScansAs`: The arguments that are accepted.
* `plainNumeral`: A numeral of digits only.
* `AcceptsExactly`: Clock times are stored, and nothing else is accepted.
* `Zone.utc`: A zone that keeps universal time.

## Theorems

* `stops_colon`: A number ends at a colon.
* `sscanf_faceTimeFormat_iff`: What the format accepts.
* `faceArg_eq_some_iff`: The accepted arguments.
* `scansAs_of_isClockTime`: Every clock time is accepted.
* `mktime_sum`: The sum that is stored.
* `getClockFaceTime_eq`: What the function does with any argument.
* `getClockFaceTime_scans`: What it stores.
* `returns_zero_iff`: When it returns zero.
* `isClockTime_unique`: The numbers of a clock time are the ones scanned.
* `offset_lt`: Offsets are far below the modulus of the sum.
* `converted_offset`: `mktime` uses some offset of the zone.
* `stored_eq_requested_iff`: When one order stores the time that was typed.
* `gmtoff_eq_iff`: When both do.
* `acceptsExactly_iff`: When the clock times are accepted, and nothing else.
* `blank_accepted`: An argument that is no clock time.
-/

namespace Wallclock

open Scan Word

/-- The text is a clock time: three decimal numbers in range, with a colon
    between them and nothing else. -/
def IsClockTime (ts : List Char) (h m s : ℕ) : Prop :=
  ∃ d₁ d₂ d₃ : List Char, ts = d₁ ++ ':' :: (d₂ ++ ':' :: d₃) ∧
    (∀ d ∈ [d₁, d₂, d₃], d ≠ [] ∧ ∀ c ∈ d, c.isDigit) ∧
    decimal d₁ = h ∧ decimal d₂ = m ∧ decimal d₃ = s ∧ h ≤ 23 ∧ m ≤ 59 ∧ s ≤ 59

/-- The day number of the local date. -/
def Zone.today (z : Zone) (now : ℤ) : ℤ := (now + z.offset now) / 86400

/-- The local time that is asked for: the given time of the current day. -/
def Zone.requested (z : Zone) (now : ℤ) (h m s : ℕ) : ℤ :=
  86400 * z.today now + 3600 * h + 60 * m + s

/-- What `mktime` makes of it, with the flag of the current instant. -/
def Zone.converted (z : Zone) (now : ℤ) (h m s : ℕ) : Option ℤ :=
  z.interpret (z.requested now h m s) (z.isdst now)

/-- The offset that is added to the result. -/
def EvalOrder.gmtoff (order : EvalOrder) (z : Zone) (now t : ℤ) : ℤ :=
  match order with
  | .callFirst => z.offset t
  | .readFirst => z.offset now

/-- The sum that is stored, in seconds. After a failure the offset is still
    that of the current instant. -/
def faceSum (order : EvalOrder) (z : Zone) (now : ℤ) (h m s : ℕ) : ℤ :=
  match z.converted now h m s with
  | none => -1 + z.offset now
  | some t => t + order.gmtoff z now t

/-- The numbers that the argument stands for, if it is accepted. -/
def faceArg (ts : List Char) : Option (ℕ × ℕ × ℕ) :=
  match sscanf faceTimeFormat ts with
  | [h, m, s] =>
    if h.toNat ≤ 23 ∧ m.toNat ≤ 59 ∧ s.toNat ≤ 59 then some (h.toNat, m.toNat, s.toNat) else none
  | _ => none

/-- The argument begins with three numbers in range, where a number may have
    blanks and a sign before it and counts modulo 2 ^ 32, and what follows the
    last one is not a digit. -/
def ScansAs (ts : List Char) (h m s : ℕ) : Prop :=
  ∃ (n₁ n₂ n₃ : Numeral) (tail : List Char),
    ts = n₁.text ++ ':' :: (n₂.text ++ ':' :: (n₃.text ++ tail)) ∧ Stops tail ∧
    n₁.value.toNat = h ∧ n₂.value.toNat = m ∧ n₃.value.toNat = s ∧ h ≤ 23 ∧ m ≤ 59 ∧ s ≤ 59

section Scanning

variable {ts : List Char}

theorem stops_colon (cs : List Char) : Stops (':' :: cs) := by
  intro c hc
  rw [← Option.some.inj hc]
  rfl

/-- The three numbers that are scanned. -/
theorem sscanf_faceTimeFormat_iff {h m s : BitVec 32} :
    sscanf faceTimeFormat ts = [h, m, s] ↔ ∃ (n₁ n₂ n₃ : Numeral) (tail : List Char),
      ts = n₁.text ++ ':' :: (n₂.text ++ ':' :: (n₃.text ++ tail)) ∧ Stops tail ∧
      n₁.value = h ∧ n₂.value = m ∧ n₃.value = s := by
  unfold faceTimeFormat
  rw [sscanf_unsigned_iff]
  simp only [sscanf_literal_iff, sscanf_unsigned_iff]
  constructor
  · rintro ⟨n₁, r₁, hts, h₁, _, r₂, hr₁, n₂, r₃, hr₂, h₂, _, r₄, hr₃, n₃, tail, hr₄, h₃, htail, _⟩
    refine ⟨n₁, n₂, n₃, tail, ?_, htail, h₁, h₂, h₃⟩
    rw [hts, hr₁, hr₂, hr₃, hr₄]
  · rintro ⟨n₁, n₂, n₃, tail, hts, htail, h₁, h₂, h₃⟩
    exact ⟨n₁, _, hts, h₁, stops_colon _, _, rfl, n₂, _, rfl, h₂, stops_colon _, _, rfl, n₃, tail,
      rfl, h₃, htail, rfl⟩

theorem faceArg_eq_some_iff {h m s : ℕ} : faceArg ts = some (h, m, s) ↔ ScansAs ts h m s := by
  unfold faceArg ScansAs
  constructor
  · intro hface
    split at hface
    · next v₁ v₂ v₃ hscan =>
      split_ifs at hface with hrange
      rw [Option.some.injEq, Prod.mk.injEq, Prod.mk.injEq] at hface
      rcases hface with ⟨h₁, h₂, h₃⟩
      rw [h₁, h₂, h₃] at hrange
      rcases sscanf_faceTimeFormat_iff.mp hscan with ⟨n₁, n₂, n₃, tail, hts, htail, e₁, e₂, e₃⟩
      exact ⟨n₁, n₂, n₃, tail, hts, htail, e₁ ▸ h₁, e₂ ▸ h₂, e₃ ▸ h₃, hrange⟩
    · exact absurd hface.symm (Option.some_ne_none _)
  · rintro ⟨n₁, n₂, n₃, tail, hts, htail, h₁, h₂, h₃, hrange⟩
    rw [sscanf_faceTimeFormat_iff.mpr ⟨n₁, n₂, n₃, tail, hts, htail, rfl, rfl, rfl⟩]
    simp only [h₁, h₂, h₃, hrange, and_self, if_true]

/-- A numeral of digits only. -/
def plainNumeral (d : List Char) (hne : d ≠ []) (hd : ∀ c ∈ d, c.isDigit) : Numeral where
  blanks := []
  sign := none
  digits := d
  blank := fun _ hc => absurd hc List.not_mem_nil
  signed := fun _ hc => absurd hc.symm (Option.some_ne_none _)
  digit := hd
  nonempty := hne

/-- A clock time is scanned as the numbers it consists of. -/
theorem scansAs_of_isClockTime {h m s : ℕ} (hts : IsClockTime ts h m s) : ScansAs ts h m s := by
  rcases hts with ⟨d₁, d₂, d₃, hts, hdigits, h₁, h₂, h₃, hrange⟩
  rcases hdigits d₁ (by simp only [List.mem_cons, true_or]) with ⟨hne₁, hd₁⟩
  rcases hdigits d₂ (by simp only [List.mem_cons, true_or, or_true]) with ⟨hne₂, hd₂⟩
  rcases hdigits d₃ (by simp only [List.mem_cons, true_or, or_true]) with ⟨hne₃, hd₃⟩
  refine ⟨plainNumeral d₁ hne₁ hd₁, plainNumeral d₂ hne₂ hd₂, plainNumeral d₃ hne₃ hd₃, [],
    ?_, fun c hc => absurd hc.symm (Option.some_ne_none c), ?_, ?_, ?_, hrange⟩
  · rw [hts, List.append_nil]
    rfl
  · rw [value_eq_decimal ⟨rfl, rfl⟩ (show decimal d₁ < 2 ^ 32 by omega)]
    exact h₁
  · rw [value_eq_decimal ⟨rfl, rfl⟩ (show decimal d₂ < 2 ^ 32 by omega)]
    exact h₂
  · rw [value_eq_decimal ⟨rfl, rfl⟩ (show decimal d₃ < 2 ^ 32 by omega)]
    exact h₃

end Scanning

/-- The sum of what `mktime` returns and the offset that is read. -/
theorem mktime_sum (order : EvalOrder) (z : Zone) (now : ℤ) (h m s : ℕ) {tm : Tm}
    (htm : tm = { z.localtime now with hour := h, min := m, sec := s }) :
    (z.mktime tm).1 + (match order with
      | .callFirst => (z.mktime tm).2.gmtoff
      | .readFirst => tm.gmtoff) = faceSum order z now h m s := by
  have hrequested : tm.localSec = z.requested now h m s := by
    rw [htm]
    rfl
  have hisdst : tm.isdst = z.isdst now := by
    rw [htm]
    rfl
  have hgmtoff : tm.gmtoff = z.offset now := by
    rw [htm]
    rfl
  unfold faceSum Zone.mktime Zone.converted
  rw [hrequested, hisdst, hgmtoff]
  -- `mktime` fails and leaves the structure alone, or fills it in.
  rcases z.interpret (z.requested now h m s) (z.isdst now) with _ | t
  · cases order with
    | callFirst => exact congrArg (-1 + ·) hgmtoff
    | readFirst => rfl
  · cases order with
    | callFirst => rfl
    | readFirst => rfl

/-- What the function does with an argument it accepts and with one it does
    not. -/
theorem getClockFaceTime_eq (order : EvalOrder) (z : Zone) (now : ℤ) (ts : List Char)
    (t : BitVec 64) : getClockFaceTime order z now ts t =
      match faceArg ts with
      | none => (-1, t)
      | some (h, m, s) => (0, BitVec.ofInt 64 (2 ^ 8 * faceSum order z now h m s)) := by
  have hle : ∀ v w : BitVec 32, (v > w ↔ ¬v.toNat ≤ w.toNat) := fun v w => by
    rw [gt_iff_lt, BitVec.lt_def, not_le]
  have h23 : (23 : BitVec 32).toNat = 23 := rfl
  have h59 : (59 : BitVec 32).toNat = 59 := rfl
  unfold getClockFaceTime faceArg
  -- Only with three numbers is there anything to check.
  rcases sscanf faceTimeFormat ts with _ | ⟨h, _ | ⟨m, _ | ⟨s, _ | ⟨v, vs⟩⟩⟩⟩
  · rfl
  · rfl
  · rfl
  · simp only [hle, h23, h59]
    by_cases hrange : h.toNat ≤ 23 ∧ m.toNat ≤ 59 ∧ s.toNat ≤ 59
    · -- All three are in range, and the two shifts are one of the sum.
      rw [if_neg (not_not_intro hrange.1), if_neg (not_not_intro hrange.2.1),
        if_neg (not_not_intro hrange.2.2), if_pos hrange]
      simp only [ofInt_shiftLeft, ← BitVec.ofInt_add, ← Int.mul_add, Prod.mk.injEq, true_and]
      exact congrArg (fun x : ℤ => BitVec.ofInt 64 (2 ^ 8 * x))
        (mktime_sum order z now h.toNat m.toNat s.toNat rfl)
    · rw [if_neg hrange]
      split_ifs with hh hm hs
      · exact absurd ⟨hh, hm, hs⟩ hrange
      · rfl
      · rfl
      · rfl
  · rfl

/-- The function accepts the clock times whose conversion succeeds, stores the
    time of their numbers on the current local date, and otherwise leaves `*t`
    alone. -/
structure AcceptsExactly (order : EvalOrder) (z : Zone) (now : ℤ) (ts : List Char)
    (t : BitVec 64) : Prop where
  accepted : (getClockFaceTime order z now ts t).1 = 0 ↔
    ∃ h m s, IsClockTime ts h m s ∧ (z.converted now h m s).isSome
  stored : ∀ h m s, IsClockTime ts h m s → (z.converted now h m s).isSome →
    (getClockFaceTime order z now ts t).2
      = BitVec.ofInt 64 (256 * (86400 * z.today now + 3600 * h + 60 * m + s))
  rejected : (getClockFaceTime order z now ts t).1 ≠ 0 →
    getClockFaceTime order z now ts t = (-1, t)

section Accepting

variable {order : EvalOrder} {z : Zone} {now : ℤ} {ts : List Char} {t : BitVec 64}

theorem getClockFaceTime_scans {h m s : ℕ} (hts : ScansAs ts h m s) :
    getClockFaceTime order z now ts t
      = (0, BitVec.ofInt 64 (2 ^ 8 * faceSum order z now h m s)) := by
  rw [getClockFaceTime_eq, faceArg_eq_some_iff.mpr hts]

/-- It returns zero exactly for the arguments that scan. -/
theorem returns_zero_iff :
    (getClockFaceTime order z now ts t).1 = 0 ↔ ∃ h m s, ScansAs ts h m s := by
  constructor
  · intro hzero
    rw [getClockFaceTime_eq] at hzero
    rcases harg : faceArg ts with _ | ⟨h, m, s⟩
    · rw [harg] at hzero
      exact absurd hzero (show (-1 : ℤ) ≠ 0 by decide)
    · exact ⟨h, m, s, faceArg_eq_some_iff.mp harg⟩
  · rintro ⟨h, m, s, hts⟩
    rw [getClockFaceTime_scans hts]

/-- The numbers of a clock time are the ones that are scanned. -/
theorem isClockTime_unique {h m s h' m' s' : ℕ} (hclock : IsClockTime ts h' m' s')
    (hts : ScansAs ts h m s) : h' = h ∧ m' = m ∧ s' = s := by
  have hsame := (faceArg_eq_some_iff.mpr (scansAs_of_isClockTime hclock)).symm.trans
    (faceArg_eq_some_iff.mpr hts)
  rw [Option.some.injEq, Prod.mk.injEq, Prod.mk.injEq] at hsame
  exact hsame

end Accepting

section Storing

variable {z : Zone} {now seconds : ℤ} {ts : List Char} {h m s : ℕ}

theorem offset_lt (z : Zone) (t : ℤ) : -2 ^ 31 < z.offset t ∧ z.offset t < 2 ^ 31 :=
  abs_lt.mp (z.bounded t)

/-- The instant that `mktime` finds has the time that was typed, at some offset
    of the zone. -/
theorem converted_offset (hconv : z.converted now h m s = some seconds) :
    ∃ t, seconds + z.offset t = z.requested now h m s :=
  z.applied seconds _ _ hconv

/-- The offset that is added must be the one that `mktime` used. -/
theorem stored_eq_requested_iff (order : EvalOrder) (t : BitVec 64) (hts : ScansAs ts h m s)
    (hconv : z.converted now h m s = some seconds) :
    getClockFaceTime order z now ts t
        = (0, BitVec.ofInt 64 (256 * (86400 * z.today now + 3600 * h + 60 * m + s))) ↔
      seconds + order.gmtoff z now seconds = z.requested now h m s := by
  have hshift := @shiftLeft_eq_iff 56 8 (seconds + order.gmtoff z now seconds)
    (z.requested now h m s)
  rw [getClockFaceTime_scans hts, faceSum, hconv, Prod.mk.injEq, ofInt_eq_iff]
  simp only [true_and]
  rw [show (256 : ℤ) = 2 ^ 8 from rfl, ← Zone.requested, show (64 : ℕ) = 8 + 56 from rfl, hshift]
  constructor
  · -- Both sides are an offset away from the instant, so they cannot differ
    -- by a multiple of the modulus.
    intro hmod
    rcases converted_offset hconv with ⟨t', ht'⟩
    have hused := offset_lt z t'
    have hadded : -2 ^ 31 < order.gmtoff z now seconds ∧ order.gmtoff z now seconds < 2 ^ 31 := by
      cases order with
      | callFirst => exact offset_lt z seconds
      | readFirst => exact offset_lt z now
    omega
  · intro hsum
    rw [hsum]

/-- Both orders add up to the time that was typed exactly if `mktime` used the
    current offset and the zone has that offset at the instant found. -/
theorem gmtoff_eq_iff {requested : ℤ} :
    (∀ order : EvalOrder, seconds + order.gmtoff z now seconds = requested) ↔
      seconds = requested - z.offset now ∧ z.offset seconds = z.offset now := by
  -- The two orders read the offset after and before the conversion.
  constructor
  · intro hall
    have hcall : seconds + z.offset seconds = requested := hall .callFirst
    have hread : seconds + z.offset now = requested := hall .readFirst
    exact ⟨by omega, by omega⟩
  · rintro ⟨hseconds, hoffset⟩ order
    cases order with
    | callFirst =>
        change seconds + z.offset seconds = _
        omega
    | readFirst =>
        change seconds + z.offset now = _
        omega

end Storing

/-- In both orders the function accepts exactly the clock times, and stores
    their time, in exactly the cases in which an argument that scans is a clock
    time, its conversion succeeds and finds it at the current offset, and the
    zone has that offset at the instant found. -/
theorem acceptsExactly_iff (z : Zone) (now : ℤ) (ts : List Char) (t : BitVec 64) :
    (∀ order, AcceptsExactly order z now ts t) ↔
      ∀ h m s, ScansAs ts h m s → IsClockTime ts h m s ∧
        ∃ seconds, z.converted now h m s = some seconds ∧
          seconds = z.requested now h m s - z.offset now ∧ z.offset seconds = z.offset now := by
  constructor
  · intro haccepts h m s hts
    rcases (haccepts .callFirst).accepted.mp (returns_zero_iff.mpr ⟨h, m, s, hts⟩)
      with ⟨h', m', s', hclock, hconverted⟩
    rcases isClockTime_unique hclock hts with ⟨rfl, rfl, rfl⟩
    rcases hconv : z.converted now h' m' s' with _ | seconds
    · rw [hconv] at hconverted
      exact absurd hconverted Bool.false_ne_true
    refine ⟨hclock, seconds, rfl, gmtoff_eq_iff.mp fun order => ?_⟩
    have hstored := (haccepts order).stored h' m' s' hclock hconverted
    refine (stored_eq_requested_iff order t hts hconv).mp (Prod.ext ?_ hstored)
    rw [getClockFaceTime_scans hts]
  · intro hall order
    refine ⟨?_, ?_, ?_⟩
    · rw [returns_zero_iff]
      constructor
      · rintro ⟨h, m, s, hts⟩
        rcases hall h m s hts with ⟨hclock, seconds, hconv, _⟩
        exact ⟨h, m, s, hclock, by rw [hconv]; rfl⟩
      · rintro ⟨h, m, s, hclock, _⟩
        exact ⟨h, m, s, scansAs_of_isClockTime hclock⟩
    · intro h m s hclock _
      have hts := scansAs_of_isClockTime hclock
      rcases hall h m s hts with ⟨_, seconds, hconv, hsum⟩
      have heq := (stored_eq_requested_iff order t hts hconv).mpr (gmtoff_eq_iff.mpr hsum order)
      exact congrArg Prod.snd heq
    · intro hne
      rcases harg : faceArg ts with _ | ⟨h, m, s⟩
      · rw [getClockFaceTime_eq, harg]
      · exact absurd (returns_zero_iff.mpr ⟨h, m, s, faceArg_eq_some_iff.mp harg⟩) hne

/-- A zone that keeps universal time. -/
def Zone.utc : Zone where
  offset _ := 0
  isdst _ := false
  interpret w _ := some w
  bounded _ := by decide
  exact t t' h := by
    rw [Option.some.injEq] at h
    exact ⟨rfl, by omega⟩
  applied t w flag h := by
    rw [Option.some.injEq] at h
    exact ⟨t, by omega⟩

/-- A blank before the hours and a minus sign before the seconds are accepted,
    and so is what follows them. -/
theorem blank_accepted :
    getClockFaceTime .callFirst .utc 0 [' ', '1', ':', '2', ':', '-', '0', 'x'] 0
      = (0, 256 * 3720) ∧
    ¬AcceptsExactly .callFirst .utc 0 [' ', '1', ':', '2', ':', '-', '0', 'x'] 0 := by
  have hstored : getClockFaceTime .callFirst .utc 0 [' ', '1', ':', '2', ':', '-', '0', 'x'] 0
      = (0, 256 * 3720) := by decide
  refine ⟨hstored, fun haccepts => ?_⟩
  have hzero := congrArg Prod.fst hstored
  rcases haccepts.accepted.mp hzero with ⟨h, m, s, ⟨d₁, d₂, d₃, hts, hdigits, _⟩, _⟩
  rcases hdigits d₁ List.mem_cons_self with ⟨hne, hd⟩
  cases d₁ with
  | nil => exact hne rfl
  | cons c d =>
      -- The first character of a clock time is a digit.
      have hc := hd c List.mem_cons_self
      rw [← (List.cons.inj hts).1] at hc
      exact absurd hc (by decide)

end Wallclock
