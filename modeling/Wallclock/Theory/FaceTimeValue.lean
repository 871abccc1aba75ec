import Wallclock.Theory.FaceTime
import Wallclock.Theory.FaceTimeArg

/-!
# The Value of the Face Time

The number that an accepted argument becomes, and what the server does with
it.

`mktime` finds an instant for the time that was typed, and the offset is added
back to get local time. `showsRequested_iff` says when the sum is the time that
was typed: `mktime` has to use the current offset, and the zone must still have
that offset at the instant found. On a day with a transition it may not, and
then the two orders of evaluation disagree.

The number is also its own is-set flag. `answersFirst_iff` says that every
request before the first status is answered exactly if the number is not zero,
and `answersFirst_main_iff` says for which arguments that is so. Zero is the
local midnight of 1970-01-01, which a host whose clock has not been set yet
asks for.

## Main definitions

* `ShowsRequested`: The stored number is the time that was typed.
* `AnswersFirst`: Requests before the first status are answered.
* `Zone.summer`: A zone with one transition.

## Theorems

* `showsRequested_iff`: When both orders store the time that was typed.
* `showsRequested_of_flag`: The ordinary day.
* `showsRequested_utc`: A zone in which they do.
* `transition_same_day`: A day on which they do not.
* `step_goes_on`, `reaches_of_no_status`: The process goes on until the first
  status.
* `answersFirst_iff`: A face time that is not zero is handed out.
* `stored_eq_zero_iff`: When the number is zero.
* `mainFaceTime_scans`: What the server is started with.
* `answersFirst_main_iff`: The arguments that requests are answered for.
* `answersFirst_main_utc`: One of them.
* `midnight_unset`: An accepted argument that is taken for none.
-/

namespace Wallclock

open ByteCodec StepMachine Word

/-- With either order of evaluation, the number stored for the argument is the
    given time of the current local date, in units of 1/256 s. -/
def ShowsRequested (z : Zone) (now : ℤ) (ts : List Char) (h m s : ℕ) : Prop :=
  ∀ order t, getClockFaceTime order z now ts t
    = (0, BitVec.ofInt 64 (256 * (86400 * z.today now + 3600 * h + 60 * m + s)))

section Value

variable {z : Zone} {now seconds : ℤ} {ts : List Char} {h m s : ℕ}

/-- The number stored is the time that was typed, in both orders, exactly if
    `mktime` used the current offset and the zone has the current offset at the
    instant found. -/
theorem showsRequested_iff (z : Zone) (now seconds : ℤ) (ts : List Char) (h m s : ℕ)
    (hts : ScansAs ts h m s) (hconv : z.converted now h m s = some seconds) :
    ShowsRequested z now ts h m s ↔
      seconds = z.requested now h m s - z.offset now ∧ z.offset seconds = z.offset now := by
  unfold ShowsRequested
  simp only [stored_eq_requested_iff _ _ hts hconv, forall_const]
  exact gmtoff_eq_iff

/-- Where the flag decides the offset, it is enough that the zone has the
    current rules at the time that was typed. -/
theorem showsRequested_of_flag (hts : ScansAs ts h m s)
    (hconv : z.converted now h m s = some seconds)
    (hthen : z.isdst (z.requested now h m s - z.offset now) = z.isdst now)
    (hflag : ∀ t, z.isdst t = z.isdst now → z.offset t = z.offset now) :
    ShowsRequested z now ts h m s := by
  have hoffset := hflag _ hthen
  have hlocal : z.requested now h m s - z.offset now
      + z.offset (z.requested now h m s - z.offset now) = z.requested now h m s := by
    omega
  -- Some instant has that local time with the current flag, so `mktime` finds one.
  have hfound := z.exact (z.requested now h m s - z.offset now) seconds
    (by rw [hlocal, hthen]; exact hconv)
  have hsame := hflag seconds (hfound.1.trans hthen)
  exact (showsRequested_iff z now seconds ts h m s hts hconv).mpr ⟨by omega, hsame⟩

end Value

/-- A zone with summer time, one hour ahead of universal time before instant
    10800 and two hours from then on. -/
def Zone.summer : Zone where
  offset t := if t < 10800 then 3600 else 7200
  isdst t := decide (10800 ≤ t)
  interpret w flag := some (w - if flag then 7200 else 3600)
  bounded t := by
    split_ifs
    · decide
    · decide
  exact t t' h := by
    have hsame : t' = t := by
      rw [Option.some.injEq] at h
      rw [← h]
      by_cases ht : t < 10800
      · rw [if_pos ht, decide_eq_false (not_le.mpr ht), if_neg Bool.false_ne_true]
        omega
      · rw [if_neg ht, decide_eq_true (not_lt.mp ht), if_pos rfl]
        omega
    rw [hsame]
    exact ⟨rfl, rfl⟩
  applied t w flag h := by
    rw [Option.some.injEq] at h
    cases flag with
    | false =>
        have hused : w - 3600 = t := h
        exact ⟨0, show t + 3600 = w by omega⟩
    | true =>
        have hused : w - 7200 = t := h
        exact ⟨10800, show t + 7200 = w by omega⟩

/-- A zone without transitions shows what was typed. -/
theorem showsRequested_utc :
    ShowsRequested .utc 40000 ['2', ':', '0', '0', ':', '0', '0'] 2 0 0 :=
  (showsRequested_iff .utc 40000 7200 _ 2 0 0
    (faceArg_eq_some_iff.mp (by decide)) (by decide)).mpr ⟨by decide, by decide⟩

/-- Two o'clock is typed at one in the afternoon of the day on which summer
    time began at four. `mktime` takes it for a summer time and finds an
    instant before the transition. -/
theorem transition_same_day :
    Zone.summer.converted 40000 2 0 0 = some 0 ∧ Zone.summer.requested 40000 2 0 0 = 7200 ∧
    getClockFaceTime .callFirst .summer 40000 ['2', ':', '0', '0', ':', '0', '0'] 0
      = (0, 256 * 3600) ∧
    getClockFaceTime .readFirst .summer 40000 ['2', ':', '0', '0', ':', '0', '0'] 0
      = (0, 256 * 7200) ∧
    ¬ShowsRequested .summer 40000 ['2', ':', '0', '0', ':', '0', '0'] 2 0 0 := by
  have hcall : getClockFaceTime .callFirst .summer 40000 ['2', ':', '0', '0', ':', '0', '0'] 0
      = (0, 256 * 3600) := by decide
  refine ⟨by decide, by decide, hcall, by decide, fun hshows => ?_⟩
  have hbad := (hshows .callFirst 0).symm.trans hcall
  exact absurd hbad (by decide)

/-- The face time is set, and until the first status the process goes on and
    every request is answered with it. -/
structure AnswersFirst (T : BitVec 64) : Prop where
  set : T ≠ 0
  goesOn : ∀ is : List ClientWrite, (∀ j ∈ is, commandByte j.payload ≠ 3) →
    ∃ g, commandMachine.Reaches (Globals.init T) is g
  answered : ∀ (is : List ClientWrite) i g, (∀ j ∈ is, commandByte j.payload ≠ 3) →
    commandMachine.Reaches (Globals.init T) is g → commandByte i.payload = 1 →
    commandMachine.step g i
      = ([⟨i.server.clockReadDataHandle, 0x01 :: leBytes 8 T.toNat⟩],
        some { g with lastActivity := i.clock.time })

section Sentinel

variable {g : Globals} {i : ClientWrite} {is : List ClientWrite} {T : BitVec 64}

/-- While the face time is set, a command that is no status does not end the
    process. -/
theorem step_goes_on (hset : g.gFaceTime ≠ 0) (h3 : commandByte i.payload ≠ 3) :
    ∃ g', (commandMachine.step g i).2 = some g' := by
  rcases commandMachine_step_cases g i with
    ⟨_, _, hstep⟩ | ⟨_, h0, _⟩ | ⟨hstatus, _⟩ | ⟨_, _, hgo, _⟩
  · exact ⟨_, by rw [hstep]⟩
  · exact absurd h0 hset
  · exact absurd hstatus h3
  · exact ⟨g, hgo⟩

theorem reaches_of_no_status (hT : T ≠ 0) (h : ∀ j ∈ is, commandByte j.payload ≠ 3) :
    ∃ g, commandMachine.Reaches (Globals.init T) is g := by
  induction is using List.reverseRecOn with
  | nil => exact ⟨Globals.init T, reaches_nil_iff.mpr rfl⟩
  | append_singleton is i ih =>
      have hbefore : ∀ j ∈ is, commandByte j.payload ≠ 3 := fun j hj =>
        h j (List.mem_append_left _ hj)
      rcases ih hbefore with ⟨g, hg⟩
      -- Without a status the face time is still what it was at the start.
      have hset : g.gFaceTime ≠ 0 := by
        rw [gFaceTime_reaches hbefore hg]
        exact hT
      rcases step_goes_on hset (h i (List.mem_append_right _ List.mem_cons_self)) with ⟨g', hg'⟩
      exact ⟨g', reaches_snoc_iff.mpr ⟨g, hg, hg'⟩⟩

/-- A face time that is not zero is handed out until the first status. -/
theorem answersFirst_iff : AnswersFirst T ↔ T ≠ 0 := by
  refine ⟨AnswersFirst.set, fun hT => ⟨hT, fun is h => reaches_of_no_status hT h, ?_⟩⟩
  intro is i g h hg h1
  have hface : g.gFaceTime = T := gFaceTime_reaches h hg
  rcases commandMachine_step_cases g i with ⟨_, _, hs⟩ | ⟨_, h0, _⟩ | ⟨h3, _⟩ | ⟨hne, _⟩
  · rw [hs, hface]
  · exact absurd (hface.symm.trans h0) hT
  · exact absurd (h1.symm.trans h3) (by decide)
  · exact absurd h1 hne

end Sentinel

section Zero

variable {z : Zone} {now : ℤ} {arg : List Char} {h m s : ℕ} {order : EvalOrder}

/-- The number is zero if the sum is, modulo 2 ^ 56. -/
theorem stored_eq_zero_iff :
    BitVec.ofInt 64 (2 ^ 8 * faceSum order z now h m s) = 0 ↔
      (2 ^ 56 : ℤ) ∣ faceSum order z now h m s := by
  have hshift := @shiftLeft_eq_iff 56 8 (faceSum order z now h m s) 0
  have hzero : (0 : BitVec 64) = BitVec.ofInt 64 (2 ^ 8 * 0) := rfl
  rw [hzero, ofInt_eq_iff, show (64 : ℕ) = 8 + 56 from rfl, hshift, Int.zero_emod]
  exact Int.dvd_iff_emod_eq_zero.symm

theorem mainFaceTime_scans (prog : List Char) (rest : List (List Char)) (hts : ScansAs arg h m s) :
    mainFaceTime order z now (prog :: ['-', 's'] :: arg :: rest)
      = some (BitVec.ofInt 64 (2 ^ 8 * faceSum order z now h m s)) := by
  simp only [mainFaceTime, if_true, getClockFaceTime_scans hts]
  rfl

end Zero

/-- The server that is started with an accepted argument answers every request
    before the first status exactly if the local time found for the argument is
    not the midnight of 1970-01-01 (modulo 2 ^ 56 seconds), and, where `mktime`
    fails, the current offset is not one second. -/
theorem answersFirst_main_iff (order : EvalOrder) (z : Zone) (now : ℤ) (prog arg : List Char)
    (rest : List (List Char)) (h m s : ℕ) (hts : ScansAs arg h m s) :
    (∃ T, mainFaceTime order z now (prog :: ['-', 's'] :: arg :: rest) = some T ∧
        AnswersFirst T) ↔
      (z.converted now h m s = none → z.offset now ≠ 1) ∧
      ∀ t, z.converted now h m s = some t → ¬(2 ^ 56 : ℤ) ∣ t + order.gmtoff z now t := by
  have hstart := @mainFaceTime_scans z now arg h m s order prog rest hts
  have hset : (∃ T, mainFaceTime order z now (prog :: ['-', 's'] :: arg :: rest) = some T ∧
      AnswersFirst T) ↔ ¬(2 ^ 56 : ℤ) ∣ faceSum order z now h m s := by
    simp only [hstart, Option.some.injEq, exists_eq_left', answersFirst_iff, ne_eq,
      stored_eq_zero_iff]
  rw [hset, faceSum]
  rcases z.converted now h m s with _ | t
  · -- The sum is the offset less one, which is small.
    have hoffset := offset_lt z now
    simp only [reduceCtorEq, false_implies, implies_true, and_true, forall_const]
    omega
  · simp only [reduceCtorEq, false_implies, true_and, Option.some.injEq, forall_eq']

/-- The server started in 1970 for two o'clock. -/
theorem answersFirst_main_utc :
    ∃ T, mainFaceTime .callFirst .utc 0 [[], ['-', 's'], ['2', ':', '0', ':', '0']] = some T ∧
      AnswersFirst T :=
  (answersFirst_main_iff .callFirst .utc 0 [] ['2', ':', '0', ':', '0'] [] 2 0 0
    (faceArg_eq_some_iff.mp (by decide))).mpr
    ⟨fun hnone => absurd hnone (by decide), fun t ht => by
      rw [← Option.some.inj ht]
      decide⟩

/-- At the start of 1970 midnight is accepted and stored as zero, and the first
    request ends the process. -/
theorem midnight_unset :
    getClockFaceTime .callFirst .utc 0 ['0', ':', '0', ':', '0'] 0 = (0, 0) ∧
    mainFaceTime .callFirst .utc 0 [[], ['-', 's'], ['0', ':', '0', ':', '0']] = some 0 ∧
    commandMachine.run (Globals.init 0) [.sample [0x01] (by decide)] = ([], none) ∧
    ¬AnswersFirst 0 :=
  ⟨by decide, by decide, by decide, fun h => h.set rfl⟩

end Wallclock
