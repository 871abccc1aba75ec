import Wallclock.Core.ServerThread

/-!
# Termination Requests

How far the server thread still goes once `bail` has been set.

The flag is tested at the loop head only, and a session in progress is not
told about it: `mainloop_run` retries its `epoll_wait` when the signal
interrupts it. So a request that arrives after the test does not stop the
iteration it falls into. It does stop every later one.

`Pc.stage` divides the iteration into what may still happen in it: a
connection may be accepted, a session may be started, a session is running, or
nothing of the kind. With the flag set the stage never goes back
(`advance_spends`), since the way from the last stage to the first is through
the loop head. `Spends` couples the stages with what the thread does, and
`bail_honoured` reads the bounds for a whole run off it.

## Main definitions

* `Pc.stage`: What the thread may still do in this iteration.
* `stageAfter`: The stage after a step, the last one when the process is gone.
* `Spends`: What a step may do between two stages.
* `clientWork`: What the thread does for clients.

## Theorems

* `advance_spends`: A call spends what its stages allow.
* `advance_bail`: No call resets `bail`.
* `step_spends`, `step_bail`: The same for every event.
* `run_of_spends`: The induction over what follows a request.
* `run_not_iteration`: With `bail` set no iteration begins.
* `Spends.le`: The stage never goes back.
* `run_count`: What takes the thread past a stage is done at most once.
* `run_accepted`: How many connections are still accepted.
* `run_session`: How many sessions are still started.
* `run_not_work`: Where nothing is done for clients any more.
* `interrupt_stage`: A signal that makes a call fail ends the iteration.
* `bail_honoured`: What happens at most once `bail` has been set.
* `bail_after_test`: A run in which a client is accepted and served after it.
* `bail_honoured_at_select`: Runs from the middle of an iteration.
-/

namespace Wallclock

open StepMachine

/-- What may still happen in the iteration: 0 up to the accept of a
    connection, 1 up to the start of a session, 2 in the session, 3 after. -/
def Pc.stage : Pc → Nat
  | .advertOpen => 0
  | .advert _ => 0
  | .advertClose ok => if ok then 0 else 3
  | .openDev => 0
  | .socket => 0
  | .listening _ => 0
  | .select => 0
  | .accept => 0
  | .closeListen accepted => if accepted then 1 else 3
  | .mainloopInit => 1
  | .serverCreate => 1
  | .mainloopTest => 2
  | .epollWait => 2
  | .serverDestroy => 2
  | _ => 3

def stageAfter : Option Thread → Nat
  | none => 3
  | some s => s.pc.stage

/-- What one step may do that leads from one stage to another. -/
inductive Spends : Nat → List ThreadAction → Nat → Prop
  | quiet {a b : Nat} (h : a ≤ b) : Spends a [] b
  | accept {b : Nat} (h : 1 ≤ b) : Spends 0 [.accepted] b
  | start {b : Nat} (h : 2 ≤ b) : Spends 1 [.session] b
  | write {b : Nat} (h : 2 ≤ b) : Spends 2 [.write] b
  | finish {b : Nat} (h : 3 ≤ b) : Spends 2 [.sessionEnd] b

/-- Accepting, starting a session, or handling a write. -/
def clientWork : List ThreadAction := [.accepted, .session, .write]

/-- With `bail` set a call spends what its stages allow. -/
theorem advance_spends {s : Thread} (h : s.bail = true) (e : ThreadEvent) :
    Spends s.pc.stage (s.advance e).1 (stageAfter (s.advance e).2) := by
  rcases s with ⟨pc, bail, terminate⟩
  obtain rfl : bail = true := h
  cases pc with
  | loopHead =>
      -- The only way to a new iteration, and `bail` closes it.
      cases e <;> exact .quiet (Nat.le_refl 3)
  | advertOpen => cases e <;> exact .quiet (Nat.zero_le _)
  | advert call => cases call <;> cases e <;> exact .quiet (Nat.zero_le _)
  | advertClose ok =>
      cases ok with
      | false => cases e <;> exact .quiet (Nat.le_refl 3)
      | true => cases e <;> exact .quiet (Nat.zero_le _)
  | openDev => cases e <;> exact .quiet (Nat.zero_le _)
  | socket => cases e <;> exact .quiet (Nat.zero_le _)
  | listening call => cases call <;> cases e <;> exact .quiet (Nat.zero_le _)
  | select => cases e <;> exact .quiet (Nat.zero_le _)
  | accept =>
      cases e with
      | ok => exact .accept (Nat.le_refl 1)
      | signal => exact .quiet (Nat.le_refl 0)
      | interrupt => exact .quiet (Nat.le_refl 0)
      | fail => exact .quiet (Nat.zero_le 3)
      | io event => exact .quiet (Nat.le_refl 0)
  | closeListen accepted =>
      cases accepted with
      | false => cases e <;> exact .quiet (Nat.le_refl 3)
      | true => cases e <;> exact .quiet (Nat.le_refl 1)
  | mainloopInit => cases e <;> exact .quiet (Nat.le_refl 1)
  | serverCreate =>
      cases e with
      | ok => exact .start (Nat.le_refl 2)
      | signal => exact .quiet (Nat.le_refl 1)
      | interrupt => exact .quiet (Nat.le_refl 1)
      | fail => exact .quiet (by decide : 1 ≤ 3)
      | io event => exact .quiet (Nat.le_refl 1)
  | createFailed => cases e <;> exact .quiet (Nat.le_refl 3)
  | mainloopTest =>
      -- The session goes on: `mainloop_run` does not look at `bail`.
      cases terminate <;> cases e <;> exact .quiet (Nat.le_refl 2)
  | epollWait =>
      cases e with
      | io event =>
          cases event with
          | write exits =>
              cases exits with
              | false => exact .write (Nat.le_refl 2)
              | true => exact .write (by decide : 2 ≤ 3)
          | other => exact .quiet (Nat.le_refl 2)
          | hangup => exact .quiet (Nat.le_refl 2)
      | signal => exact .quiet (Nat.le_refl 2)
      | interrupt => exact .quiet (Nat.le_refl 2)
      | ok => exact .quiet (Nat.le_refl 2)
      | fail => exact .quiet (Nat.le_refl 2)
  | serverDestroy =>
      cases e with
      | ok => exact .finish (Nat.le_refl 3)
      | signal => exact .quiet (Nat.le_refl 2)
      | interrupt => exact .quiet (Nat.le_refl 2)
      | fail => exact .quiet (Nat.le_refl 2)
      | io event => exact .quiet (Nat.le_refl 2)
  | closeFd => cases e <;> exact .quiet (Nat.le_refl 3)
  | closeDev => cases e <;> exact .quiet (Nat.le_refl 3)
  | finalCloseFd => cases e <;> exact .quiet (Nat.le_refl 3)
  | finalCloseDev => cases e <;> exact .quiet (Nat.le_refl 3)
  | returned => cases e <;> exact .quiet (Nat.le_refl 3)

/-- No call resets `bail`. -/
theorem advance_bail {s s' : Thread} {e : ThreadEvent} (hs : (s.advance e).2 = some s') :
    s'.bail = s.bail := by
  unfold Thread.advance at hs
  split at hs <;> (try split at hs) <;>
    first
    | rw [← Option.some.inj hs]
    | exact absurd hs (by simp only [reduceCtorEq, not_false_eq_true])

theorem step_spends {s : Thread} (h : s.bail = true) (e : ThreadEvent) :
    Spends s.pc.stage (serverThread.step s e).1 (stageAfter (serverThread.step s e).2) := by
  cases e with
  | signal => exact .quiet (Nat.le_refl _)
  | interrupt =>
      unfold serverThread
      by_cases hblocks : s.pc.blocks = true
      · -- The call fails with EINTR, after the handler has set `bail`.
        simp only [hblocks, if_true]
        exact advance_spends (s := { s with bail := true }) rfl .fail
      · simp only [hblocks, Bool.false_eq_true, if_false]
        exact .quiet (Nat.le_refl _)
  | ok => exact advance_spends h .ok
  | fail => exact advance_spends h .fail
  | io event => exact advance_spends h (.io event)

theorem step_bail {s s' : Thread} {e : ThreadEvent} (h : s.bail = true)
    (hs : (serverThread.step s e).2 = some s') : s'.bail = true := by
  cases e with
  | signal => rw [← Option.some.inj hs]
  | interrupt =>
      unfold serverThread at hs
      by_cases hblocks : s.pc.blocks = true
      · simp only [hblocks, if_true] at hs
        exact advance_bail hs
      · simp only [hblocks, Bool.false_eq_true, if_false] at hs
        rw [← Option.some.inj hs]
  | ok => exact (advance_bail hs).trans h
  | fail => exact (advance_bail hs).trans h
  | io event => exact (advance_bail hs).trans h

/-- The induction behind every bound on what follows a termination request: a
    property of the outputs that holds of none of them, and that a step adds
    to as its stages allow, holds of every run. -/
theorem run_of_spends (P : Nat → List ThreadAction → Prop) (hnil : ∀ k, P k [])
    (hcons : ∀ a out b rest, Spends a out b → P b rest → P a (out ++ rest))
    {s : Thread} (h : s.bail = true) (es : List ThreadEvent) :
    P s.pc.stage (serverThread.run s es).1 := by
  -- Induction on the events; `bail` stays set, so the step lemma applies again.
  induction es generalizing s with
  | nil => exact hnil _
  | cons e es ih =>
      have hspends := step_spends h e
      rcases hstep : serverThread.step s e with ⟨out, _ | s'⟩
      · rw [hstep] at hspends
        rw [run_cons_stop es hstep, ← List.append_nil out]
        exact hcons _ _ _ _ hspends (hnil _)
      · have hbail := step_bail h (show (serverThread.step s e).2 = some s' by rw [hstep])
        rw [hstep] at hspends
        rw [run_cons_go es hstep]
        exact hcons _ _ _ _ hspends (ih hbail)

/-- With `bail` set no iteration begins. -/
theorem run_not_iteration {s : Thread} (h : s.bail = true) (es : List ThreadEvent) :
    .iteration ∉ (serverThread.run s es).1 := by
  refine run_of_spends (fun _ out => .iteration ∉ out) (fun _ => List.not_mem_nil) ?_ h es
  intro a out b rest hspends hrest
  rw [List.mem_append]
  rintro (hout | hmem)
  · cases hspends <;> simp only [List.mem_cons, List.not_mem_nil, reduceCtorEq, or_self] at hout
  · exact hrest hmem

/-- Stages are never left backwards. -/
theorem Spends.le {a b : Nat} {out : List ThreadAction} (h : Spends a out b) : a ≤ b := by
  cases h with
  | quiet hle => exact hle
  | accept hle => exact Nat.zero_le b
  | start hle => omega
  | write hle => exact hle
  | finish hle => omega

/-- An action that takes the thread past a stage is done at most once, and not
    at all from a later stage on. -/
theorem run_count {x : ThreadAction} {k : Nat} (hx : ∀ a out b, Spends a out b →
      out.count x = 0 ∨ out.count x = 1 ∧ a ≤ k ∧ k < b)
    {s : Thread} (h : s.bail = true) (es : List ThreadEvent) :
    (serverThread.run s es).1.count x ≤ if s.pc.stage ≤ k then 1 else 0 := by
  refine run_of_spends (fun j out => out.count x ≤ if j ≤ k then 1 else 0)
    (fun _ => Nat.zero_le _) ?_ h es
  intro a out b rest hspends hrest
  have hle := hspends.le
  rw [List.count_append]
  rcases hx a out b hspends with hnone | ⟨hone, ha, hb⟩
  · split_ifs at hrest ⊢ <;> omega
  · -- The step has passed the stage, so the rest has none of it.
    rw [if_neg (by omega)] at hrest
    rw [if_pos ha]
    omega

/-- At most one more connection is accepted, and none past the accept of the
    iteration. -/
theorem run_accepted {s : Thread} (h : s.bail = true) (es : List ThreadEvent) :
    (serverThread.run s es).1.count .accepted ≤ if s.pc.stage = 0 then 1 else 0 := by
  have hcount := run_count (x := .accepted) (k := 0) ?_ h es
  · simpa only [Nat.le_zero] using hcount
  intro a out b hspends
  cases hspends with
  | quiet hle => exact Or.inl rfl
  | accept hle => exact Or.inr ⟨rfl, Nat.le_refl 0, hle⟩
  | start hle => exact Or.inl rfl
  | write hle => exact Or.inl rfl
  | finish hle => exact Or.inl rfl

/-- At most one more session is started, and none past the start of the
    iteration's session. -/
theorem run_session {s : Thread} (h : s.bail = true) (es : List ThreadEvent) :
    (serverThread.run s es).1.count .session ≤ if s.pc.stage ≤ 1 then 1 else 0 := by
  refine run_count ?_ h es
  intro a out b hspends
  cases hspends with
  | quiet hle => exact Or.inl rfl
  | accept hle => exact Or.inl rfl
  | start hle => exact Or.inr ⟨rfl, Nat.le_refl 1, hle⟩
  | write hle => exact Or.inl rfl
  | finish hle => exact Or.inl rfl

/-- In the last stage nothing is done for clients any more, and the end of a
    session leads to the last stage. -/
theorem run_not_work {s : Thread} (h : s.bail = true) (es : List ThreadEvent) :
    (3 ≤ s.pc.stage → ∀ a ∈ (serverThread.run s es).1, a ∉ clientWork) ∧
      ∀ before after, (serverThread.run s es).1 = before ++ .sessionEnd :: after →
        ∀ a ∈ after, a ∉ clientWork := by
  refine run_of_spends (fun k out => (3 ≤ k → ∀ a ∈ out, a ∉ clientWork) ∧
    ∀ before after, out = before ++ .sessionEnd :: after → ∀ a ∈ after, a ∉ clientWork)
    ?_ ?_ h es
  · intro k
    refine ⟨fun _ a ha => absurd ha List.not_mem_nil, ?_⟩
    intro before after heq
    exact absurd heq.symm (List.append_ne_nil_of_right_ne_nil _ (List.cons_ne_nil _ _))
  · intro a out b rest hspends hrest
    -- An action that is not the end of a session leaves it to the rest.
    have hskip : ∀ x : ThreadAction, x ≠ .sessionEnd → ∀ before after,
        [x] ++ rest = before ++ .sessionEnd :: after → ∀ a ∈ after, a ∉ clientWork := by
      intro x hx before after heq
      cases before with
      | nil =>
          rw [List.cons_append, List.nil_append, List.nil_append, List.cons.injEq] at heq
          exact absurd heq.1 hx
      | cons b before =>
          rw [List.cons_append, List.nil_append, List.cons_append, List.cons.injEq] at heq
          exact hrest.2 before after heq.2
    cases hspends with
    | quiet hle => exact ⟨fun hk => hrest.1 (by omega), hrest.2⟩
    | accept hle => exact ⟨fun hk => by omega, hskip .accepted (by decide)⟩
    | start hle => exact ⟨fun hk => by omega, hskip .session (by decide)⟩
    | write hle => exact ⟨fun hk => by omega, hskip .write (by decide)⟩
    | finish hle =>
        refine ⟨fun hk => by omega, ?_⟩
        intro before after heq
        cases before with
        | nil =>
            rw [List.cons_append, List.nil_append, List.nil_append, List.cons.injEq] at heq
            rw [← heq.2]
            exact hrest.1 hle
        | cons b before =>
            rw [List.cons_append, List.nil_append, List.cons_append, List.cons.injEq] at heq
            exact hrest.2 before after heq.2

/-- A signal that makes `select` or `accept` fail, or one of the two reads of
    `restart_advert`, leads to the last stage. -/
theorem interrupt_stage {s : Thread} (hblocks : s.pc.blocks = true) (hwait : s.pc ≠ .epollWait) :
    ∃ s', serverThread.step s .interrupt = ([], some s') ∧ s'.bail = true ∧ s'.pc.stage = 3 := by
  rcases s with ⟨pc, bail, terminate⟩
  cases pc with
  | advert call =>
      cases call <;>
        first
        | exact ⟨_, rfl, rfl, rfl⟩
        | exact absurd hblocks Bool.false_ne_true
  | select => exact ⟨_, rfl, rfl, rfl⟩
  | accept => exact ⟨_, rfl, rfl, rfl⟩
  | epollWait => exact absurd rfl hwait
  | _ => exact absurd hblocks Bool.false_ne_true

/-- Once `bail` has been set, in whatever state of the thread, the test at the
    loop head is not passed again. At most one more connection is accepted and
    at most one more session is started, the accept and the start of the
    iteration the request fell into; if it fell between two iterations there
    is nothing more. After the end of a session nothing is done for clients,
    and neither is it if the signal interrupted a system call other than
    `epoll_wait`. -/
theorem bail_honoured (s : Thread) (after : List ThreadEvent) :
    (s.bail = true →
      .iteration ∉ (serverThread.run s after).1 ∧
      (serverThread.run s after).1.count .accepted ≤ (if s.pc.stage = 0 then 1 else 0) ∧
      (serverThread.run s after).1.count .session ≤ (if s.pc.stage ≤ 1 then 1 else 0) ∧
      (s.pc.stage = 3 → ∀ a ∈ (serverThread.run s after).1, a ∉ clientWork) ∧
      (∀ out₁ out₂, (serverThread.run s after).1 = out₁ ++ .sessionEnd :: out₂ →
        ∀ a ∈ out₂, a ∉ clientWork)) ∧
    (s.pc.blocks = true → s.pc ≠ .epollWait →
      ∀ a ∈ (serverThread.run s (.interrupt :: after)).1, a ∉ clientWork) := by
  refine ⟨fun h => ⟨run_not_iteration h after, run_accepted h after, run_session h after,
    fun hstage => (run_not_work h after).1 (by omega), (run_not_work h after).2⟩, ?_⟩
  intro hblocks hwait
  rcases interrupt_stage hblocks hwait with ⟨s', hstep, hbail, hstage⟩
  rw [run_cons_go after hstep]
  exact (run_not_work hbail after).1 (by omega)

/-- The signal arrives after the test of `bail`, while the listening socket is
    set up. A client is accepted, a session is started and its write is
    handled. -/
theorem bail_after_test :
    (serverThread.run Thread.start (List.replicate 15 .ok ++ [.signal])).2
        = some ⟨.select, true, false⟩ ∧
      (serverThread.run ⟨.select, true, false⟩ (List.replicate 6 .ok ++ [.io (.write false)])).1
        = [.accepted, .session, .write] := by
  decide

/-- With the request before `select` the client is still served, but neither is
    another one accepted nor another session started. If the request interrupts
    `select`, the same inputs lead out of the loop. -/
theorem bail_honoured_at_select :
    let rest : List ThreadEvent := List.replicate 6 .ok ++ [.io (.write false)]
    ((serverThread.run ⟨.select, true, false⟩ rest).1 = [.accepted, .session, .write] ∧
      .iteration ∉ (serverThread.run ⟨.select, true, false⟩ rest).1 ∧
      (serverThread.run ⟨.select, true, false⟩ rest).1.count .accepted ≤ 1 ∧
      (serverThread.run ⟨.select, true, false⟩ rest).1.count .session ≤ 1) ∧
    ∀ a ∈ (serverThread.run ⟨.select, false, false⟩ (.interrupt :: rest)).1, a ∉ clientWork := by
  intro rest
  have hserved := (bail_honoured ⟨.select, true, false⟩ rest).1 rfl
  have hinterrupted := (bail_honoured ⟨.select, false, false⟩ rest).2 rfl (by decide)
  exact ⟨⟨by decide, hserved.1, hserved.2.1, hserved.2.2.1⟩, hinterrupted⟩

end Wallclock
