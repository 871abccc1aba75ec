import Wallclock.Library.Machine
import Wallclock.Theory.Status

/-!
# The Clock Protocol

What the command handler is for, as a machine of its own.

The clock asks for a face time once, asks for the time now and then, and
reports its status. `ClockState` is all the server has to remember for that:
the face time to hand out, if there is one, the last status, and how many
statuses there have been. A face time is nonzero by type, so the abstract
state cannot confuse an unset face time with midnight of 1970; the code tells
them apart by the value zero.

`protocolMachine` answers requests that are already parsed, and
`ClientWrite.request` is the parser. `represents_step` compares one step of
the handler with one step of the protocol, and `commandMachine_refines` is
the comparison of whole runs: the same notifications, and related states or
the same termination.

Termination is also described without the protocol, by the payloads alone.
The face time is only ever given up, by a status (`face_reaches`), so the
process ends at the first face time request that comes when there was none
from the start or some status has been processed.

## Main definitions

* `FaceTime`: A face time that is set.
* `FaceTime.ofGlobal`: The face time a number stands for.
* `Request`: A parsed command.
* `ClockState`: The abstract state.
* `ClockState.start`: The abstract state at start-up.
* `protocolMachine`: The abstract machine.
* `ClientWrite.request`: The request a payload makes, and where to answer it.
* `Globals.face`: The face time the globals hold.
* `Globals.Holds`: The globals hold a status, or none yet.
* `Represents`: The globals represent an abstract state.
* `ClientWrite.sample`: A payload in a fixed environment.

## Theorems

* `commandMachine_step`: A step of the handler, without the callback around it.
* `face_init`: The globals start with the face time they were given.
* `represents_init`: The start-up states are related.
* `represents_record`: Recording a status keeps the states related.
* `represents_step`: One step of the handler is one step of the protocol.
* `request_faceTime_iff`: The payloads that ask for the face time.
* `request_status_iff`: The payloads that report a status.
* `simulates_protocol`: The handler simulates the protocol.
* `face_step`: What one step does to the face time.
* `face_reaches`: When the face time is unset, in terms of the requests.
* `protocol_stops_iff`: When the protocol terminates.
* `commandMachine_refines`: The refinement over whole runs.
-/

namespace Wallclock

open ByteCodec StepMachine

/-- A face time that is set. Zero means unset, so it is not one. -/
abbrev FaceTime := { t : BitVec 64 // t ≠ 0 }

inductive Request
  | faceTime
  | time (now : BitVec 64)
  | status (s : Status)
  | other
deriving DecidableEq

/-- What the server remembers between two requests. -/
structure ClockState where
  face : Option FaceTime
  status : Option Status
  pollCount : BitVec 16
deriving DecidableEq

/-- The face time a number stands for. -/
def FaceTime.ofGlobal (t : BitVec 64) : Option FaceTime :=
  if h : t ≠ 0 then some ⟨t, h⟩ else none

def ClockState.start (faceTime : BitVec 64) : ClockState where
  face := FaceTime.ofGlobal faceTime
  status := none
  pollCount := 0

/-- The protocol. An input is the handle to answer on and a request. -/
def protocolMachine : StepMachine ClockState (Nat × Request) Notification where
  step a i := match i.2 with
    | .faceTime => match a.face with
      | some face => ([⟨i.1, 0x01 :: leBytes 8 face.val.toNat⟩], some a)
      | none => ([], none)
    | .time now => ([⟨i.1, 0x02 :: leBytes 8 now.toNat⟩], some a)
    | .status s => ([⟨i.1, [0x03]⟩], some ⟨none, some s, a.pollCount + 1⟩)
    | .other => ([], some a)

/-- The request a payload makes, with the handle its connection answers on. -/
def ClientWrite.request (i : ClientWrite) : Nat × Request :=
  (i.server.clockReadDataHandle,
    if commandByte i.payload = 1 then .faceTime
    else if commandByte i.payload = 2 then .time (getTime i.clock)
    else if commandByte i.payload = 3 then .status (Status.decode i.payload)
    else .other)

def Globals.face (g : Globals) : Option FaceTime := FaceTime.ofGlobal g.gFaceTime

/-- The globals hold the numbers of a status, or are still cleared. -/
def Globals.Holds (g : Globals) : Option Status → Prop
  | none => g.gTimeouts = 0 ∧ g.gVbat = 0 ∧ g.gPollInterval = 0 ∧ g.gMatch = 0 ∧ g.gDelta = 0
  | some s => g.gTimeouts.toNat = s.timeouts.toNat ∧ g.gVbat.toNat = s.battery.toNat ∧
      g.gPollInterval.toNat = 2 ^ s.interval.toNat ∧ g.gMatch = s.matches_ ∧ g.gDelta = s.offset

/-- The globals represent an abstract state. The time stamps do not matter. -/
structure Represents (g : Globals) (a : ClockState) : Prop where
  face : g.face = a.face
  holds : g.Holds a.status
  pollCount : g.gPollCount = a.pollCount

/-- A step is the command handler on the payload, its replies sent on the
    data handle. -/
theorem commandMachine_step (g : Globals) (i : ClientWrite) :
    commandMachine.step g i
      = ((clockCommand i.stack i.clock g i.payload).1.map (clockReadDataCb i.server),
        (clockCommand i.stack i.clock g i.payload).2) := by
  simp only [commandMachine, clockWriteDataWriteCb_accepted i.accepted.1 i.accepted.2,
    Option.map_map, Function.comp_def, Option.map_id']

theorem face_init (T : BitVec 64) : (ClockState.start T).face = none ↔ T = 0 := by
  unfold ClockState.start FaceTime.ofGlobal
  by_cases hT : T = 0
  · simp only [hT, ne_eq, not_true_eq_false, dite_false]
  · simp only [hT, ne_eq, not_false_eq_true, dite_true, reduceCtorEq]

theorem represents_init (T : BitVec 64) : Represents (Globals.init T) (ClockState.start T) :=
  ⟨rfl, ⟨rfl, rfl, rfl, rfl, rfl⟩, rfl⟩

theorem represents_record {g : Globals} {a : ClockState} (h : Represents g a) (s : Status)
    (now : BitVec 64) : Represents (g.record s now) ⟨none, some s, a.pollCount + 1⟩ := by
  have ht := s.timeouts.isLt
  have hb := s.battery.isLt
  have hi := s.interval.isLt
  refine ⟨rfl, ⟨?_, ?_, ?_, rfl, rfl⟩, ?_⟩
  · rw [Globals.record, BitVec.toNat_setWidth]
    omega
  · rw [Globals.record, BitVec.toNat_setWidth]
    omega
  · rw [Globals.record, BitVec.toNat_ofNat]
    exact Nat.mod_eq_of_lt (Nat.pow_lt_pow_right (by decide) (by omega))
  · rw [Globals.record, h.pollCount]

/-- One step of the handler is one step of the protocol: they notify alike,
    and both end or both go on in related states. -/
theorem represents_step {g : Globals} {a : ClockState} {i : ClientWrite} (h : Represents g a)
    (hfull : commandByte i.payload = 3 → 14 ≤ i.payload.length) :
    (commandMachine.step g i).1 = (protocolMachine.step a i.request).1 ∧
      Option.Rel Represents (commandMachine.step g i).2 (protocolMachine.step a i.request).2 := by
  have hlen := i.accepted.1
  rw [commandMachine_step]
  unfold ClientWrite.request protocolMachine
  by_cases h1 : commandByte i.payload = 1
  · -- The face time is set in both machines or in neither.
    have hface := h.face
    unfold Globals.face FaceTime.ofGlobal at hface
    by_cases hset : g.gFaceTime = 0
    · rw [dif_neg (not_not_intro hset)] at hface
      rw [clockCommand_req_face_time_unset hlen h1 hset]
      simp only [if_pos h1, ← hface]
      exact ⟨rfl, Option.Rel.none⟩
    · rw [dif_pos hset] at hface
      rw [clockCommand_req_face_time hlen h1 hset]
      simp only [if_pos h1, ← hface]
      exact ⟨rfl, Option.Rel.some ⟨h.face, h.holds, h.pollCount⟩⟩
  · by_cases h2 : commandByte i.payload = 2
    · rw [clockCommand_req_time hlen h2]
      simp only [if_neg h1, if_pos h2]
      exact ⟨rfl, Option.Rel.some h⟩
    · by_cases h3 : commandByte i.payload = 3
      · rw [clockCommand_accept_status_full (hfull h3) h3]
        simp only [if_neg h1, if_neg h2, if_pos h3]
        exact ⟨rfl, Option.Rel.some (represents_record h _ _)⟩
      · rw [clockCommand_other hlen h1 h2 h3]
        simp only [if_neg h1, if_neg h2, if_neg h3]
        exact ⟨rfl, Option.Rel.some h⟩

theorem request_faceTime_iff (i : ClientWrite) :
    i.request.2 = .faceTime ↔ commandByte i.payload = 1 := by
  unfold ClientWrite.request
  by_cases h1 : commandByte i.payload = 1
  · simp only [h1, if_true]
  · simp only [h1, if_false, iff_false]
    split_ifs <;> exact not_false

theorem request_status_iff (i : ClientWrite) :
    (∃ s, i.request.2 = .status s) ↔ commandByte i.payload = 3 := by
  unfold ClientWrite.request
  by_cases h3 : commandByte i.payload = 3
  · simp only [h3, Nat.reduceEqDiff, if_false, if_true, Request.status.injEq, exists_eq']
  · simp only [h3, if_false, iff_false, not_exists]
    intro s
    split_ifs <;> exact not_false

theorem simulates_protocol :
    Simulates commandMachine protocolMachine ClientWrite.request
      (fun i => commandByte i.payload = 3 → 14 ≤ i.payload.length) Represents where
  out _ _ _ h hfull := (represents_step h hfull).1
  next _ _ _ h hfull := (represents_step h hfull).2

/-- One step leaves the face time unset exactly if it was, or if the request
    was a status. -/
theorem face_step {a a' : ClockState} {i : Nat × Request}
    (h : (protocolMachine.step a i).2 = some a') :
    a'.face = none ↔ a.face = none ∨ ∃ s, i.2 = .status s := by
  rcases i with ⟨handle, request⟩
  unfold protocolMachine at h
  cases request with
  | faceTime =>
      cases hface : a.face with
      | none =>
          simp only [hface] at h
          exact absurd h (by simp only [reduceCtorEq, not_false_eq_true])
      | some t =>
          simp only [hface, Option.some.injEq] at h
          simp only [← h, hface, reduceCtorEq, exists_false, or_self]
  | time now =>
      simp only [Option.some.injEq] at h
      simp only [h, reduceCtorEq, exists_false, or_false]
  | status s =>
      simp only [Option.some.injEq] at h
      simp only [← h, Request.status.injEq, exists_eq', or_true]
  | other =>
      simp only [Option.some.injEq] at h
      simp only [h, reduceCtorEq, exists_false, or_false]

/-- After a run the face time is unset exactly if it was unset before or a
    status has been processed. -/
theorem face_reaches {a a' : ClockState} {is : List (Nat × Request)}
    (h : protocolMachine.Reaches a is a') :
    a'.face = none ↔ a.face = none ∨ ∃ i ∈ is, ∃ s, i.2 = .status s := by
  induction is generalizing a with
  | nil =>
      rw [reaches_nil_iff] at h
      simp only [h, List.not_mem_nil, false_and, exists_false, or_false]
  | cons i is ih =>
      rcases reaches_cons_iff.mp h with ⟨m, hm, hrest⟩
      rw [ih hrest, face_step hm]
      simp only [List.mem_cons, exists_eq_or_imp, or_assoc]

/-- The protocol terminates exactly at a face time request that comes when
    the face time was unset from the start or a status came before. -/
theorem protocol_stops_iff (a : ClockState) (is : List (Nat × Request)) :
    (protocolMachine.run a is).2 = none ↔
      ∃ before i after, is = before ++ i :: after ∧ i.2 = .faceTime ∧
        (a.face = none ∨ ∃ j ∈ before, ∃ s, j.2 = .status s) := by
  constructor
  · intro hstop
    rcases run_stops_iff.mp hstop with ⟨before, i, after, m, heq, hreach, hi⟩
    have hface : i.2 = .faceTime ∧ m.face = none := by
      rcases i with ⟨handle, request⟩
      unfold protocolMachine at hi
      cases request with
      | faceTime =>
          cases hm : m.face with
          | none => exact ⟨rfl, rfl⟩
          | some t =>
              simp only [hm] at hi
              exact absurd hi (by simp only [reduceCtorEq, not_false_eq_true])
      | time now => exact absurd hi (by simp only [reduceCtorEq, not_false_eq_true])
      | status s => exact absurd hi (by simp only [reduceCtorEq, not_false_eq_true])
      | other => exact absurd hi (by simp only [reduceCtorEq, not_false_eq_true])
    exact ⟨before, i, after, heq, hface.1, (face_reaches hreach).mp hface.2⟩
  · rintro ⟨before, i, after, heq, hi, hunset⟩
    -- Either the run has stopped earlier or this request stops it.
    cases hbefore : (protocolMachine.run a before).2 with
    | none =>
        rw [heq, run_append_stop _ hbefore, hbefore]
    | some m =>
        refine run_stops_iff.mpr ⟨before, i, after, m, heq, hbefore, ?_⟩
        have hm := (face_reaches hbefore).mpr hunset
        unfold protocolMachine
        simp only [hi, hm]

/-- The commands of any number of connections refine the protocol. Every run
    of the handler makes the notifications of the protocol's run and ends in a
    related state. It ends the process at a face time request exactly if the
    face time was unset at start-up or a status has come before. -/
theorem commandMachine_refines (T : BitVec 64) (is : List ClientWrite)
    (hfull : ∀ i ∈ is, commandByte i.payload = 3 → 14 ≤ i.payload.length) :
    (commandMachine.run (Globals.init T) is).1
        = (protocolMachine.run (ClockState.start T) (is.map ClientWrite.request)).1 ∧
      Option.Rel Represents (commandMachine.run (Globals.init T) is).2
        (protocolMachine.run (ClockState.start T) (is.map ClientWrite.request)).2 ∧
      ((commandMachine.run (Globals.init T) is).2 = none ↔
        ∃ before i after, is = before ++ i :: after ∧ commandByte i.payload = 1 ∧
          (T = 0 ∨ ∃ j ∈ before, commandByte j.payload = 3)) := by
  rcases run_simulates simulates_protocol is hfull (represents_init T) with ⟨hout, hnext⟩
  refine ⟨hout, hnext, ?_⟩
  rw [run_simulates_stops simulates_protocol is hfull (represents_init T), protocol_stops_iff,
    face_init]
  constructor
  · rintro ⟨before, i, after, heq, hi, hunset⟩
    -- The split of the requests comes from a split of the payloads.
    rcases List.map_eq_append_iff.mp heq with ⟨before', rest, rfl, rfl, hrest⟩
    rcases List.map_eq_cons_iff.mp hrest with ⟨i', after', rfl, rfl, rfl⟩
    refine ⟨before', i', after', rfl, (request_faceTime_iff i').mp hi, hunset.imp_right ?_⟩
    rintro ⟨j, hj, hs⟩
    rcases List.mem_map.mp hj with ⟨j', hj', rfl⟩
    exact ⟨j', hj', (request_status_iff j').mp hs⟩
  · rintro ⟨before, i, after, rfl, hi, hunset⟩
    refine ⟨before.map ClientWrite.request, i.request, after.map ClientWrite.request, ?_,
      (request_faceTime_iff i).mpr hi, hunset.imp_right ?_⟩
    · rw [List.map_append, List.map_cons]
    · rintro ⟨j, hj, hs⟩
      exact ⟨j.request, List.mem_map_of_mem hj, (request_status_iff j).mpr hs⟩

/-- A payload on a new connection, at time zero and on a cleared stack. -/
def ClientWrite.sample (payload : List UInt8)
    (accepted : 1 ≤ payload.length ∧ payload.length ≤ 100) : ClientWrite :=
  ⟨⟨10, false, 14, 18, false⟩, payload, accepted, ⟨0, fun _ => 0, 0, 0⟩, fillStack 0x00⟩

/-- A status ends the process at the face time request after it. -/
theorem commandMachine_refines_status_then_request :
    (commandMachine.run (Globals.init 5)
      [.sample (Status.encode ⟨0, 0, 0, 0, 0⟩) (by decide), .sample [0x01] (by decide)]).2 = none :=
  (commandMachine_refines 5 _ (by decide)).2.2.mpr
    ⟨[_], _, [], rfl, rfl, Or.inr ⟨_, List.mem_cons_self, rfl⟩⟩

end Wallclock
