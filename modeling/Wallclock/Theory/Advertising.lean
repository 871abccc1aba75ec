import Wallclock.Core.Advertising

/-!
# Advertising

What a return value of `restart_advert` says.

The function returns a value that is not negative where no call fails
(`restartAdvert_succeeds`, `restartAdvert_returned`). That takes two events of
any kind for the two `read`s, and a completion of any status for each of the
two requests: the bytes that are read and the statuses that are copied are not
looked at. `Completed` is what the caller relies on instead, and
`reliable_iff` says which events have to come for that.

The device is another matter. Every path that returns comes to the label that
closes it, whatever has happened.

## Main definitions

* `Completed`: A command has been completed with status 0.
* `Reliable`: What the caller relies on.
* `Grants`: The first completion of a command is a success.
* `Host.parameters`, `Host.enable`: The two requests.
* `Host.CallsSucceed`: No call fails.
* `Host.Granted`: The events of four successes.
* `SendReq.tenTries`, `Host.refusing`: A sample host.

## Theorems

* `event_eq_some_iff`, `event_of_rc`, `rc_of_event`: Requests that succeed.
* `status_eq_some_iff`, `status_eq_none_iff`: The events that are completions.
* `grants_iff`: A command that is granted.
* `restartAdvert_succeeds`: The result where no call fails.
* `restartAdvert_returned`: Any result.
* `restartAdvert_table`: The descriptors are those of the model of the loop.
* `completed_iff`: The event that `hci_send_req` ends with.
* `parameters_lt_enable`: The order of the requests.
* `completed_all_iff`: All four commands.
* `reliable_iff`: When the result can be relied on.
* `refusal_unnoticed`: A result that cannot.
-/

namespace Wallclock.Advertising

open Await Descriptor

/-- With `pos` events read the command was sent, and with `read` events read its
    completion had been delivered, with status 0. -/
def Completed (events : Stream'.Seq HciEvent) (c : Command) (pos read : ℕ) : Prop :=
  ∃ n, First events (HciEvent.status c.opcode) pos n 0 ∧ n < read

/-- A return value that is not negative means that all four commands have been
    completed with status 0, and whenever the function returns, the device has
    been opened and closed. -/
structure Reliable (K : Allocator) (h : Host) (t : Table) : Prop where
  success : ∀ r, restartAdvert K h t = .returned r → 0 ≤ r.rc →
    r.sent.map Prod.fst =
      [setAdvertisingData, setScanResponseData, setAdvertisingParameters, setAdvertiseEnable] ∧
    ∀ s ∈ r.sent, Completed h.events s.1 s.2 r.read
  closed : ∀ r, restartAdvert K h t = .returned r → r.table = t

/-- The controller grants a command: among the events from `start` to `last`
    there is a completion of it, and the first one has status 0. -/
def Grants (events : Stream'.Seq HciEvent) (opcode : Opcode) (start last : ℕ) : Prop :=
  ∃ i, start ≤ i ∧ i ≤ last ∧ events.get? i = some (.commandComplete opcode 0) ∧
    ∀ m, start ≤ m → m < i → ∀ status, events.get? m ≠ some (.commandComplete opcode status)

namespace Host

/-- What `hci_send_req` does with the parameters. -/
def parameters (h : Host) : Outcome :=
  h.sendReq.run setAdvertisingParameters 500 h.events 2

/-- What it does with the command behind them. -/
def enable (h : Host) : Outcome :=
  h.sendReq.run setAdvertiseEnable 1000 h.events h.parameters.read

/-- No call fails, the two events that are read arrive, and the two requests end
    with the events at the given positions. -/
structure CallsSucceed (h : Host) (pos pos' : ℕ) : Prop where
  openDev : h.openDev = true
  setFilter : h.setFilter = true
  sendData : h.sendData = true
  readData : h.readData = true
  first : h.events.get? 0 ≠ none
  sendScan : h.sendScan = true
  readScan : h.readScan = true
  second : h.events.get? 1 ≠ none
  parameters : h.parameters.event = some pos
  enable : h.enable.event = some pos'

/-- The controller grants the first two commands by the event at `pos'`, and the
    events at the two positions are successes of the other two. -/
structure Granted (h : Host) (pos pos' : ℕ) : Prop where
  data : Grants h.events setAdvertisingData.opcode 0 pos'
  scan : Grants h.events setScanResponseData.opcode 1 pos'
  parameters : h.events.get? pos = some (.commandComplete setAdvertisingParameters.opcode 0)
  enable : h.events.get? pos' = some (.commandComplete setAdvertiseEnable.opcode 0)

end Host

section Outcomes

variable {o : Outcome} {pos : ℕ}

theorem event_eq_some_iff : o.event = some pos ↔ ∃ rc status, o = .done rc status pos := by
  cases o with
  | failed read => simp only [Outcome.event, reduceCtorEq, exists_false]
  | done rc status n => simp only [Outcome.event, Option.some.injEq, Outcome.done.injEq,
      exists_and_left, exists_and_right, exists_eq', true_and]

/-- A return value that is not negative is that of a success. -/
theorem event_of_rc (h : ¬o.rc < 0) : ∃ pos, o.event = some pos := by
  cases o with
  | failed read => exact absurd (show (-1 : ℤ) < 0 by decide) h
  | done rc status pos => exact ⟨pos, rfl⟩

theorem rc_of_event (h : o.event = some pos) : 0 ≤ o.rc ∧ o.read = pos + 1 := by
  rcases event_eq_some_iff.mp h with ⟨rc, status, rfl⟩
  exact ⟨Int.natCast_nonneg rc, rfl⟩

end Outcomes

section Events

variable {events : Stream'.Seq HciEvent} {opcode : Opcode} {status : UInt8} {n : ℕ}

theorem status_eq_some_iff : (events.get? n).bind (HciEvent.status opcode) = some status ↔
    events.get? n = some (.commandComplete opcode status) := by
  rcases events.get? n with _ | _ | ⟨completed, st⟩
  · simp only [Option.bind_none, reduceCtorEq]
  · simp only [Option.bind_some, HciEvent.status, reduceCtorEq, Option.some.injEq]
  · simp only [Option.bind_some, HciEvent.status, Option.some.injEq, HciEvent.commandComplete.injEq]
    split_ifs with hopcode
    · simp only [hopcode, Option.some.injEq, true_and]
    · simp only [hopcode, false_and]

theorem status_eq_none_iff : (events.get? n).bind (HciEvent.status opcode) = none ↔
    ∀ status, events.get? n ≠ some (.commandComplete opcode status) := by
  rw [Option.eq_none_iff_forall_ne_some]
  exact forall_congr' fun status => not_congr status_eq_some_iff

/-- A command that is granted has been completed with status 0. -/
theorem grants_iff {c : Command} {start last : ℕ} :
    Grants events c.opcode start last ↔ Completed events c start (last + 1) := by
  constructor
  · rintro ⟨i, hstart, hlast, hget, hbefore⟩
    exact ⟨i, ⟨hstart, status_eq_some_iff.mpr hget, fun m hm hlt =>
      status_eq_none_iff.mpr (hbefore m hm hlt)⟩, Nat.lt_succ_of_le hlast⟩
  · rintro ⟨i, hfirst, hlast⟩
    exact ⟨i, hfirst.le, Nat.le_of_lt_succ hlast, status_eq_some_iff.mp hfirst.answers,
      fun m hm hlt => status_eq_none_iff.mp (hfirst.before m hm hlt)⟩

end Events

section Restarting

variable {K : Allocator} {h : Host} {t : Table} {r : Return} {pos pos' : ℕ}

/-- Where no call fails, the last return value is that of `hci_send_req`. -/
theorem restartAdvert_succeeds (K : Allocator) (t : Table) (hcalls : h.CallsSucceed pos pos') :
    restartAdvert K h t = .returned ⟨h.enable.rc, t,
      [(setAdvertisingData, 0), (setScanResponseData, 1), (setAdvertisingParameters, 2),
        (setAdvertiseEnable, h.parameters.read)], h.enable.read⟩ := by
  have hpass : ∀ {b : Bool}, b = true → ¬(!b) = true := fun hb => by
    rw [hb]
    exact Bool.false_ne_true
  -- One test for each call, in the order of the calls.
  unfold restartAdvert
  refine (if_neg (hpass hcalls.openDev)).trans ?_
  refine (if_neg (hpass hcalls.setFilter)).trans ?_
  refine (if_neg (hpass hcalls.sendData)).trans ?_
  refine (if_neg (hpass hcalls.readData)).trans ?_
  refine (if_neg hcalls.first).trans ?_
  refine (if_neg (hpass hcalls.sendScan)).trans ?_
  refine (if_neg (hpass hcalls.readScan)).trans ?_
  refine (if_neg hcalls.second).trans ?_
  refine (if_neg (not_lt.mpr (rc_of_event hcalls.parameters).1)).trans ?_
  exact congrArg (fun t => Ending.returned ⟨h.enable.rc, t, _, h.enable.read⟩) Table.close_openNew

/-- Every path that returns closes the device, and a path on which a call has
    failed returns a negative value. -/
theorem restartAdvert_returned (hr : restartAdvert K h t = .returned r) :
    r.table = t ∧ (0 ≤ r.rc → ∃ pos pos', h.CallsSucceed pos pos') := by
  have hpassed : ∀ {b : Bool}, ¬(!b) = true → b = true := fun hb => by
    rwa [Bool.not_eq_true', Bool.not_eq_false] at hb
  -- What the label `fail` does where a call has failed.
  have hfail : ∀ {sent : List (Command × ℕ)} {read : ℕ},
      Ending.returned ⟨-1, (t.openNew K).2.close (some (t.openNew K).1), sent, read⟩ = .returned r →
        r.table = t ∧ (0 ≤ r.rc → ∃ pos pos', h.CallsSucceed pos pos') := by
    intro sent read heq
    rw [Ending.returned.injEq] at heq
    rw [← heq]
    exact ⟨Table.close_openNew, fun hrc => absurd hrc (show ¬(0 : ℤ) ≤ -1 by decide)⟩
  -- One case for each call, in the order of the calls.
  unfold restartAdvert at hr
  by_cases hopen : (!h.openDev) = true
  · exact Ending.noConfusion ((if_pos hopen).symm.trans hr)
  replace hr := (if_neg hopen).symm.trans hr
  by_cases hfilter : (!h.setFilter) = true
  · exact hfail ((if_pos hfilter).symm.trans hr)
  replace hr := (if_neg hfilter).symm.trans hr
  by_cases hsend : (!h.sendData) = true
  · exact hfail ((if_pos hsend).symm.trans hr)
  replace hr := (if_neg hsend).symm.trans hr
  by_cases hread : (!h.readData) = true
  · exact hfail ((if_pos hread).symm.trans hr)
  replace hr := (if_neg hread).symm.trans hr
  by_cases hfirst : h.events.get? 0 = none
  · exact Ending.noConfusion ((if_pos hfirst).symm.trans hr)
  replace hr := (if_neg hfirst).symm.trans hr
  by_cases hscan : (!h.sendScan) = true
  · exact hfail ((if_pos hscan).symm.trans hr)
  replace hr := (if_neg hscan).symm.trans hr
  by_cases hreadScan : (!h.readScan) = true
  · exact hfail ((if_pos hreadScan).symm.trans hr)
  replace hr := (if_neg hreadScan).symm.trans hr
  by_cases hsecond : h.events.get? 1 = none
  · exact Ending.noConfusion ((if_pos hsecond).symm.trans hr)
  replace hr := (if_neg hsecond).symm.trans hr
  by_cases hparameters : h.parameters.rc < 0
  · exact hfail ((if_pos hparameters).symm.trans hr)
  replace hr := (if_neg hparameters).symm.trans hr
  rw [← Ending.returned.inj hr]
  refine ⟨Table.close_openNew, fun hrc => ?_⟩
  -- Both requests have succeeded, each with some event.
  rcases event_of_rc hparameters with ⟨pos, hpos⟩
  rcases event_of_rc (o := h.enable) (not_lt.mpr hrc) with ⟨pos', hpos'⟩
  exact ⟨pos, pos', hpassed hopen, hpassed hfilter, hpassed hsend, hpassed hread, hfirst,
    hpassed hscan, hpassed hreadScan, hsecond, hpos, hpos'⟩

/-- The device is opened and closed as in the model of the loop. -/
theorem restartAdvert_table (hr : restartAdvert K h t = .returned r) :
    r.table = Wallclock.restartAdvert K t := by
  rw [(restartAdvert_returned hr).1]
  exact Table.close_openNew.symm

/-- The event that `hci_send_req` ends with decides how its command has been
    completed. -/
theorem completed_iff {c : Command} {timeout start n read : ℕ}
    (hevent : (h.sendReq.run c timeout h.events start).event = some n) (hread : n < read) :
    Completed h.events c start read ↔
      h.events.get? n = some (.commandComplete c.opcode 0) := by
  rcases event_eq_some_iff.mp hevent with ⟨rc, status, hdone⟩
  have hfirst := h.sendReq.completes c timeout h.events start rc status n hdone
  constructor
  · rintro ⟨n', hzero, _⟩
    rcases first_unique hfirst hzero with ⟨rfl, _⟩
    exact status_eq_some_iff.mp hzero.answers
  · intro hget
    exact ⟨n, ⟨hfirst.le, status_eq_some_iff.mpr hget, hfirst.before⟩, hread⟩

/-- The second request comes behind the first. -/
theorem parameters_lt_enable (hcalls : h.CallsSucceed pos pos') : pos < pos' := by
  rcases event_eq_some_iff.mp hcalls.enable with ⟨rc, status, hdone⟩
  have hle := (h.sendReq.completes _ _ _ _ rc status pos' hdone).le
  rw [(rc_of_event hcalls.parameters).2] at hle
  omega

/-- Where no call fails, the four commands have been completed with status 0
    exactly if the controller grants them. -/
theorem completed_all_iff (hcalls : h.CallsSucceed pos pos') :
    (∀ s ∈ [(setAdvertisingData, 0), (setScanResponseData, 1), (setAdvertisingParameters, 2),
        (setAdvertiseEnable, h.parameters.read)], Completed h.events s.1 s.2 h.enable.read) ↔
      h.Granted pos pos' := by
  have hread : h.enable.read = pos' + 1 := (rc_of_event hcalls.enable).2
  have hparameters : Completed h.events setAdvertisingParameters 2 (pos' + 1) ↔
      h.events.get? pos = some (.commandComplete setAdvertisingParameters.opcode 0) :=
    completed_iff hcalls.parameters (Nat.lt_succ_of_lt (parameters_lt_enable hcalls))
  have henable : Completed h.events setAdvertiseEnable h.parameters.read (pos' + 1) ↔
      h.events.get? pos' = some (.commandComplete setAdvertiseEnable.opcode 0) :=
    completed_iff hcalls.enable (Nat.lt_succ_self pos')
  simp only [List.forall_mem_cons, hread, hparameters, henable]
  constructor
  · rintro ⟨hdata, hscan, hpos, hpos', _⟩
    exact ⟨grants_iff.mpr hdata, grants_iff.mpr hscan, hpos, hpos'⟩
  · rintro ⟨hdata, hscan, hpos, hpos'⟩
    exact ⟨grants_iff.mp hdata, grants_iff.mp hscan, hpos, hpos', fun _ hs =>
      absurd hs List.not_mem_nil⟩

end Restarting

/-- A return value that is not negative can be relied on exactly if a call fails
    or the controller grants all four commands. -/
theorem reliable_iff (K : Allocator) (h : Host) (t : Table) :
    Reliable K h t ↔ ∀ pos pos', h.CallsSucceed pos pos' → h.Granted pos pos' := by
  constructor
  · intro hreliable pos pos' hcalls
    exact (completed_all_iff hcalls).mp
      (hreliable.success _ (restartAdvert_succeeds K t hcalls) (rc_of_event hcalls.enable).1).2
  · intro hgranted
    refine ⟨fun r hr hrc => ?_, fun r hr => (restartAdvert_returned hr).1⟩
    rcases (restartAdvert_returned hr).2 hrc with ⟨pos, pos', hcalls⟩
    rw [restartAdvert_succeeds K t hcalls, Ending.returned.injEq] at hr
    rw [← hr]
    exact ⟨rfl, (completed_all_iff hcalls).mpr (hgranted pos pos' hcalls)⟩

/-- The `hci_send_req` that looks at ten events and then gives up. -/
def SendReq.tenTries : SendReq where
  run c _ events pos :=
    match poll events (HciEvent.status c.opcode) 10 pos with
    | some (status, read) => .done 0 status (read - 1)
    | none => .failed pos
  completes c timeout events pos rc status n hdone := by
    cases hpoll : poll events (HciEvent.status c.opcode) 10 pos with
    | some r =>
        rcases first_of_poll hpoll with ⟨i, hfirst, hi⟩
        simp only [hpoll, Outcome.done.injEq, hi, Nat.add_sub_cancel] at hdone
        rw [← hdone.2.1, ← hdone.2.2]
        exact hfirst
    | none =>
        simp only [hpoll, reduceCtorEq] at hdone

/-- A controller that refuses to enable advertising, after an unrelated event
    and three completions, the first of them with an error as well. -/
def Host.refusing : Host where
  openDev := true
  setFilter := true
  sendData := true
  readData := true
  sendScan := true
  readScan := true
  events := ↑[HciEvent.other, .commandComplete setAdvertisingData.opcode 0x12,
    .commandComplete setScanResponseData.opcode 0x00,
    .commandComplete setAdvertisingParameters.opcode 0x00,
    .commandComplete setAdvertiseEnable.opcode 0x0C]
  sendReq := .tenTries

/-- The function reports success, although the controller has refused the data
    and does not advertise. -/
theorem refusal_unnoticed :
    (∃ r, restartAdvert .lowest .refusing ⟨∅, {0, 1, 2}, []⟩ = .returned r ∧ r.rc = 0 ∧
      r.read = 5) ∧
    Host.refusing.events.get? 4 = some (.commandComplete setAdvertiseEnable.opcode 0x0C) ∧
    ¬Reliable .lowest .refusing ⟨∅, {0, 1, 2}, []⟩ := by
  have hcalls : Host.refusing.CallsSucceed 3 4 :=
    ⟨rfl, rfl, rfl, rfl, by decide, rfl, rfl, by decide, by decide, by decide⟩
  have hreturns := restartAdvert_succeeds .lowest ⟨∅, {0, 1, 2}, []⟩ hcalls
  refine ⟨⟨_, hreturns, rfl, rfl⟩, rfl, fun hreliable => ?_⟩
  have hgranted := (completed_all_iff hcalls).mp
    (hreliable.success _ hreturns (rc_of_event hcalls.enable).1).2
  exact absurd hgranted.enable (by decide)

end Wallclock.Advertising
