import Wallclock.Core.Signals

/-!
# Signal Windows

Which signals are handled when.

Masks and dispositions are functions of the two program counters, and that is
all the invariant of a run has to say about them (`Consistent`). Reading them
off shows the defect at once: both threads unblock their signals before they
install the handler. Between the two calls a signal that is delivered kills
the process. `Window` names those control points.

`Protected` is what every state should be, and `SafeRun` adds what
follows from it for the run: no signal is acted on with its default
disposition, and every forwarded signal has set `bail` or is still pending.
Since both threads come through their windows, only the runs that end before
either has unblocked its signals are safe in this sense. The consequences hold
of more runs, and `safeRun_iff` says of which: the process survives exactly if no
signal is delivered in its window (`alive_iff`), and a forwarded signal is never
lost, windows or not (`forwarded_reaches`).

## Main definitions

* `Window`: A thread has unblocked signals whose handler it has yet to install.
* `Unblocks`: A thread unblocks signals.
* `Exposed`: A signal is delivered in its window.
* `Protected`: Unblocked signals have their handlers.
* `SafeRun`: Protection in every state of a run, and what it is for.
* `mainMaskAt`, `serverMaskAt`, `actionAt`: The masks and dispositions of a
  control point.
* `Consistent`: The invariant of the machine.
* `Noticed`: A forwarded signal is pending or has set `bail`.
* `Early`: No thread has unblocked its signals.

## Theorems

* `consistent_start`: The start state is consistent.
* `Consistent.advance`: A call of `main` that keeps the state consistent.
* `consistent_mainStep`, `consistent_serverStep`: All of the threads' calls do.
* `act_cases`: What acting on a signal does.
* `signalMachine_step_cases`: What an event does.
* `consistent_act`: Acting on a signal keeps the state consistent.
* `Consistent.shrink`: So does taking a signal from the pending ones.
* `consistent_step`: So does every event.
* `consistent_reaches`: Every state of a run is consistent.
* `protected_of_window`: Outside the windows the state is protected.
* `window_of_protected`: A protected state is outside the windows.
* `serverMask_usr1`: The server thread is only ever sent SIGUSR1.
* `act_killed_iff`: A signal without a handler kills the process.
* `main_exposed_iff`, `server_exposed_iff`: Where that may happen.
* `killed_step_iff`: The events that kill the process.
* `mainStep_noticed`, `serverStep_noticed`: The calls lose no signal.
* `forwarded_step`: No event loses a forwarded signal.
* `forwarded_reaches`: No run loses a forwarded signal.
* `alive_iff`: The runs that the process survives.
* `forwarded_leads`: What becomes of a forwarded signal.
* `window_of_unblocks`, `early_step`, `not_window_of_early`, `window_of_exposed`: The
  way into the windows.
* `safeRun_iff`: The runs that are safe.
* `sigterm_in_window`: A run in which SIGTERM kills the process.
* `safeRun_startup`: A run in which it does not.
-/

namespace Wallclock

open StepMachine

/-- A thread has unblocked its signals and has not installed all handlers. -/
def Window (s : Process) : Prop :=
  s.main = .actionTerm ∨ s.main = .actionInt ∨ s.server = .action

/-- The event is a call in which a thread unblocks signals. -/
def Unblocks (s : Process) : SignalEvent → Prop
  | .main _ => s.main = .unblock
  | .server _ => s.server = .unblock
  | _ => False

/-- The event delivers a pending signal to a thread that has unblocked it and not
    installed its handler yet. -/
def Exposed (s : Process) : SignalEvent → Prop
  | .deliverMain sig => sig ∈ s.pending ∧ (s.main = .actionTerm ∨ s.main = .actionInt ∧ sig = .int)
  | .deliverServer sig => sig ∈ s.serverPending ∧ s.server = .action
  | _ => False

instance (s : Process) : ∀ e, Decidable (Unblocks s e)
  | .main _ => inferInstanceAs (Decidable (_ = _))
  | .server _ => inferInstanceAs (Decidable (_ = _))
  | .kill _ => isFalse id
  | .deliverMain _ => isFalse id
  | .deliverServer _ => isFalse id

instance (s : Process) : ∀ e, Decidable (Exposed s e)
  | .main _ => isFalse id
  | .server _ => isFalse id
  | .kill _ => isFalse id
  | .deliverMain _ => inferInstanceAs (Decidable (_ ∧ _))
  | .deliverServer _ => inferInstanceAs (Decidable (_ ∧ _))

/-- The signals a thread does not block have their handler. -/
structure Protected (s : Process) : Prop where
  main : ∀ sig, sig = .term ∨ sig = .int → sig ∉ s.mainMask → s.action sig = some .forward
  server : s.server ≠ .absent → .usr1 ∉ s.serverMask → s.action .usr1 = some .bail

/-- Every state of the run is protected, no signal is acted on with its
    default disposition, and a forwarded signal has set `bail` or is pending
    and will set it when it is delivered. -/
structure SafeRun (is : List SignalEvent) : Prop where
  states : ∀ before after s, is = before ++ after →
    signalMachine.Reaches Process.start before s → Protected s
  alive : ∀ sig, .killed sig ∉ (signalMachine.run Process.start is).1
  forwarded : ∀ before after s, is = before ++ after →
    signalMachine.Reaches Process.start before s →
    .forwarded ∈ (signalMachine.run Process.start before).1 →
    s.bail = true ∨ (.usr1 ∈ s.serverPending ∧ (.usr1 ∉ s.serverMask →
      ∃ s', signalMachine.step s (.deliverServer .usr1) = ([], some s') ∧ s'.bail = true))

def mainMaskAt : MainPc → Finset Signal
  | .create => {.int, .term, .usr1, .usr2}
  | .unblock => {.int, .term, .usr1, .usr2}
  | _ => {.usr1, .usr2}

def serverMaskAt : ServerPc → Finset Signal
  | .absent => ∅
  | .unblock => {.int, .term, .usr1, .usr2}
  | _ => {.int, .term, .usr2}

/-- The dispositions once the threads have got as far as their counters say. -/
def actionAt (main : MainPc) (server : ServerPc) : Signal → Option Handler
  | .term => if main = .create ∨ main = .unblock ∨ main = .actionTerm then none else some .forward
  | .int => if main = .notify ∨ main = .join then some .forward else none
  | .usr1 => if server = .loop ∨ server = .returned then some .bail else none
  | .usr2 => none

/-- Masks and dispositions agree with the program counters, only the signals
    of the program are pending, and the server thread exists once it has been
    created and returns only with `bail` set. -/
structure Consistent (s : Process) : Prop where
  mainMask : s.mainMask = mainMaskAt s.main
  serverMask : s.serverMask = serverMaskAt s.server
  action : s.action = actionAt s.main s.server
  pending : s.pending ⊆ {.term, .int}
  serverPending : s.serverPending ⊆ {.usr1}
  absent : s.server = .absent ↔ s.main = .create
  idle : s.server = .absent → s.serverPending = ∅
  returned : s.server = .returned → s.bail = true

theorem consistent_start : Consistent Process.start := by
  refine ⟨rfl, rfl, ?_, Finset.empty_subset _, Finset.empty_subset _, by decide,
    fun _ => rfl, by decide⟩
  funext sig
  cases sig <;> rfl

/-- A call of `main` that sets its mask and the dispositions to those of its
    next control point keeps the state consistent. -/
theorem Consistent.advance {s : Process} (h : Consistent s) {pc : MainPc} {mask : Finset Signal}
    {action : Signal → Option Handler} (hmain : s.main ≠ .create) (hpc : pc ≠ .create)
    (hmask : mask = mainMaskAt pc) (haction : action = actionAt pc s.server) :
    Consistent { s with main := pc, mainMask := mask, action := action } := by
  refine ⟨hmask, h.serverMask, haction, h.pending, h.serverPending, ?_, h.idle, h.returned⟩
  exact iff_of_false (fun hs => hmain (h.absent.mp hs)) hpc

theorem consistent_mainStep {s s' : Process} {ok : Bool} (h : Consistent s)
    (hs : s.mainStep ok = some s') : Consistent s' := by
  -- One case for each call; each sets what the next counter says.
  have hmask := h.mainMask
  have haction := h.action
  unfold Process.mainStep at hs
  cases hmain : s.main with
  | create =>
      have hserver := h.absent.mpr hmain
      rw [hmain] at hs hmask haction
      cases ok with
      | false => exact absurd hs (by simp only [Bool.false_eq_true, if_false, reduceCtorEq,
          not_false_eq_true])
      | true =>
          simp only [if_true, Option.some.injEq] at hs
          rw [← hs]
          -- The new thread inherits the mask.
          refine ⟨hmask, hmask, ?_, h.pending, h.serverPending, ?_, fun _ => h.idle hserver,
            fun hr => ?_⟩
          · rw [haction, hserver]
            funext sig
            cases sig <;> rfl
          · simp only [reduceCtorEq]
          · exact absurd hr (by simp only [reduceCtorEq, not_false_eq_true])
  | unblock =>
      rw [hmain] at hs hmask haction
      rw [← Option.some.inj hs]
      refine h.advance (by rw [hmain]; decide) (by decide) ?_ ?_
      · rw [hmask]
        decide
      · rw [haction]
        funext sig
        cases sig <;> rfl
  | actionTerm =>
      rw [hmain] at hs hmask haction
      rw [← Option.some.inj hs]
      refine h.advance (by rw [hmain]; decide) (by decide) hmask ?_
      rw [haction]
      funext sig
      cases sig <;> rfl
  | actionInt =>
      rw [hmain] at hs hmask haction
      rw [← Option.some.inj hs]
      refine h.advance (by rw [hmain]; decide) (by decide) hmask ?_
      rw [haction]
      funext sig
      cases sig <;> rfl
  | notify =>
      rw [hmain] at hs hmask haction
      rw [← Option.some.inj hs]
      refine h.advance (by rw [hmain]; decide) (by decide) hmask ?_
      rw [haction]
      funext sig
      cases sig <;> rfl
  | join =>
      rw [hmain] at hs
      by_cases hret : s.server = .returned
      · rw [if_pos hret] at hs
        exact absurd hs (by simp only [reduceCtorEq, not_false_eq_true])
      · rw [if_neg hret, Option.some.injEq] at hs
        rw [← hs]
        exact h

theorem consistent_serverStep {s s' : Process} {ok : Bool} (h : Consistent s)
    (hs : s.serverStep ok = some s') : Consistent s' := by
  have hmask := h.serverMask
  have haction := h.action
  have hcreate := h.absent
  unfold Process.serverStep at hs
  cases hserver : s.server with
  | absent =>
      rw [hserver] at hs
      rw [← Option.some.inj hs]
      exact h
  | unblock =>
      rw [hserver] at hs hmask haction hcreate
      rw [← Option.some.inj hs]
      refine ⟨h.mainMask, ?_, ?_, h.pending, h.serverPending, ?_, fun ha => ?_, fun hr => ?_⟩
      · rw [hmask]
        exact (by decide : serverMaskAt .unblock \ {.usr1} = serverMaskAt .action)
      · rw [haction]
        funext sig
        cases sig <;> rfl
      · simpa only [reduceCtorEq] using hcreate
      · exact absurd ha (by simp only [reduceCtorEq, not_false_eq_true])
      · exact absurd hr (by simp only [reduceCtorEq, not_false_eq_true])
  | action =>
      rw [hserver] at hs hmask haction hcreate
      rw [← Option.some.inj hs]
      refine ⟨h.mainMask, hmask, ?_, h.pending, h.serverPending, ?_, fun ha => ?_, fun hr => ?_⟩
      · rw [haction]
        funext sig
        cases sig <;> rfl
      · simpa only [reduceCtorEq] using hcreate
      · exact absurd ha (by simp only [reduceCtorEq, not_false_eq_true])
      · exact absurd hr (by simp only [reduceCtorEq, not_false_eq_true])
  | loop =>
      rw [hserver] at hs hmask haction hcreate
      by_cases hbail : s.bail = true
      · rw [if_pos hbail] at hs
        rw [← Option.some.inj hs]
        refine ⟨h.mainMask, hmask, ?_, h.pending, h.serverPending, ?_, fun ha => ?_,
          fun _ => hbail⟩
        · rw [haction]
          funext sig
          cases sig <;> rfl
        · simpa only [reduceCtorEq] using hcreate
        · exact absurd ha (by simp only [reduceCtorEq, not_false_eq_true])
      · -- An iteration either goes round or ends the process.
        cases ok with
        | false =>
            simp only [hbail, Bool.false_eq_true, if_false, reduceCtorEq] at hs
        | true =>
            simp only [hbail, Bool.false_eq_true, if_false, if_true] at hs
            rw [← Option.some.inj hs]
            exact h
  | returned =>
      rw [hserver] at hs
      rw [← Option.some.inj hs]
      exact h

/-- What acting on a signal does, where the process survives it. -/
theorem act_cases {s s' : Process} {sig : Signal} (hs : (s.act sig).2 = some s') :
    (s.action sig = some .forward ∧ (s.server = .absent ∨ s.server = .returned) ∧ s' = s) ∨
      (s.action sig = some .forward ∧ ¬(s.server = .absent ∨ s.server = .returned) ∧
        s' = { s with serverPending := insert .usr1 s.serverPending }) ∨
      (s.action sig = some .bail ∧ s' = { s with bail := true }) := by
  unfold Process.act at hs
  rcases haction : s.action sig with _ | handler
  · rw [haction] at hs
    exact absurd hs.symm (Option.some_ne_none s')
  rw [haction] at hs
  cases handler with
  | forward =>
      simp only at hs
      by_cases hgone : s.server = .absent ∨ s.server = .returned
      · rw [if_pos hgone] at hs
        exact Or.inl ⟨rfl, hgone, (Option.some.inj hs).symm⟩
      · rw [if_neg hgone] at hs
        exact Or.inr (Or.inl ⟨rfl, hgone, (Option.some.inj hs).symm⟩)
  | bail => exact Or.inr (Or.inr ⟨rfl, (Option.some.inj hs).symm⟩)

/-- What an event does: a call of a thread, a signal that becomes pending, the
    delivery of a signal to one of the threads, or nothing. -/
theorem signalMachine_step_cases (s : Process) (e : SignalEvent) :
    (∃ ok, signalMachine.step s e = ([], s.mainStep ok)) ∨
      (∃ ok, signalMachine.step s e = ([], s.serverStep ok)) ∨
      (∃ sig, (sig = .term ∨ sig = .int) ∧
        signalMachine.step s e = ([], some { s with pending := insert sig s.pending })) ∨
      (∃ sig, sig ∈ s.pending ∧ sig ∉ s.mainMask ∧
        signalMachine.step s e = Process.act { s with pending := s.pending.erase sig } sig) ∨
      (∃ sig p q, s.server ≠ .absent ∧ s.server ≠ .returned ∧ sig ∉ s.serverMask ∧
        p ⊆ s.pending ∧ q ⊆ s.serverPending ∧ signalMachine.step s e =
          Process.act { s with pending := p, serverPending := q } sig) ∨
      signalMachine.step s e = ([], some s) := by
  cases e with
  | main ok => exact Or.inl ⟨ok, rfl⟩
  | server ok => exact Or.inr (Or.inl ⟨ok, rfl⟩)
  | kill sig =>
      by_cases hsig : sig = .term ∨ sig = .int
      · exact Or.inr (Or.inr (Or.inl ⟨sig, hsig, if_pos hsig⟩))
      · exact Or.inr (Or.inr (Or.inr (Or.inr (Or.inr (if_neg hsig)))))
  | deliverMain sig =>
      by_cases hsig : sig ∈ s.pending ∧ sig ∉ s.mainMask
      · exact Or.inr (Or.inr (Or.inr (Or.inl ⟨sig, hsig.1, hsig.2, if_pos hsig⟩)))
      · exact Or.inr (Or.inr (Or.inr (Or.inr (Or.inr (if_neg hsig)))))
  | deliverServer sig =>
      simp only [signalMachine]
      by_cases hgone : s.server = .absent ∨ s.server = .returned ∨ sig ∈ s.serverMask
      · exact Or.inr (Or.inr (Or.inr (Or.inr (Or.inr (if_pos hgone)))))
      rw [if_neg hgone]
      push Not at hgone
      rcases hgone with ⟨habsent, hret, hmask⟩
      -- A signal sent to the thread goes before one sent to the process.
      by_cases hthread : sig ∈ s.serverPending
      · exact Or.inr (Or.inr (Or.inr (Or.inr (Or.inl ⟨sig, s.pending, s.serverPending.erase sig,
          habsent, hret, hmask, subset_refl _, Finset.erase_subset _ _, if_pos hthread⟩))))
      rw [if_neg hthread]
      by_cases hproc : sig ∈ s.pending
      · exact Or.inr (Or.inr (Or.inr (Or.inr (Or.inl ⟨sig, s.pending.erase sig, s.serverPending,
          habsent, hret, hmask, Finset.erase_subset _ _, subset_refl _, if_pos hproc⟩))))
      · exact Or.inr (Or.inr (Or.inr (Or.inr (Or.inr (if_neg hproc)))))

/-- A handler changes neither masks nor dispositions. -/
theorem consistent_act {s s' : Process} {sig : Signal} (h : Consistent s)
    (hs : (s.act sig).2 = some s') : Consistent s' := by
  rcases act_cases hs with ⟨_, _, rfl⟩ | ⟨_, hgone, rfl⟩ | ⟨_, rfl⟩
  · exact h
  · refine ⟨h.mainMask, h.serverMask, h.action, h.pending, ?_, h.absent,
      fun ha => absurd (Or.inl ha) hgone, h.returned⟩
    exact Finset.insert_subset (Finset.mem_singleton_self _) h.serverPending
  · exact ⟨h.mainMask, h.serverMask, h.action, h.pending, h.serverPending, h.absent, h.idle,
      fun _ => rfl⟩

/-- Forgetting pending signals keeps the state consistent. -/
theorem Consistent.shrink {s : Process} (h : Consistent s) {p q : Finset Signal}
    (hp : p ⊆ s.pending) (hq : q ⊆ s.serverPending) :
    Consistent { s with pending := p, serverPending := q } :=
  ⟨h.mainMask, h.serverMask, h.action, hp.trans h.pending, hq.trans h.serverPending, h.absent,
    fun ha => Finset.subset_empty.mp (h.idle ha ▸ hq), h.returned⟩

theorem consistent_step {s s' : Process} {e : SignalEvent} (h : Consistent s)
    (hs : (signalMachine.step s e).2 = some s') : Consistent s' := by
  rcases signalMachine_step_cases s e with ⟨ok, heq⟩ | ⟨ok, heq⟩ | ⟨sig, hsig, heq⟩ |
    ⟨sig, _, _, heq⟩ | ⟨sig, p, q, _, _, _, hp, hq, heq⟩ | heq
  · rw [heq] at hs
    exact consistent_mainStep h hs
  · rw [heq] at hs
    exact consistent_serverStep h hs
  · rw [heq] at hs
    rw [← Option.some.inj hs]
    refine ⟨h.mainMask, h.serverMask, h.action, ?_, h.serverPending, h.absent, h.idle, h.returned⟩
    refine Finset.insert_subset ?_ h.pending
    rcases hsig with rfl | rfl <;> decide
  · rw [heq] at hs
    exact consistent_act (h.shrink (Finset.erase_subset _ _) (subset_refl _)) hs
  · rw [heq] at hs
    exact consistent_act (h.shrink hp hq) hs
  · rw [heq] at hs
    rw [← Option.some.inj hs]
    exact h

theorem consistent_reaches {is : List SignalEvent} {s : Process}
    (hr : signalMachine.Reaches Process.start is s) : Consistent s :=
  reaches_invariant Consistent (fun _ _ _ h hs => consistent_step h hs) consistent_start hr

/-- Outside the windows every signal that is not blocked has its handler. -/
theorem protected_of_window {s : Process} (h : Consistent s) (hw : ¬Window s) : Protected s := by
  unfold Window at hw
  push Not at hw
  rcases hw with ⟨hterm, hint, haction⟩
  constructor
  · intro sig hsig hmask
    rw [h.mainMask] at hmask
    rw [h.action]
    cases hmain : s.main with
    | create =>
        rw [hmain] at hmask
        exact absurd (by rcases hsig with rfl | rfl <;> decide) hmask
    | unblock =>
        rw [hmain] at hmask
        exact absurd (by rcases hsig with rfl | rfl <;> decide) hmask
    -- Past `unblock` the handlers are there except in the windows.
    | actionTerm => exact absurd hmain hterm
    | actionInt => exact absurd hmain hint
    | notify => rcases hsig with rfl | rfl <;> rfl
    | join => rcases hsig with rfl | rfl <;> rfl
  · intro habsent hmask
    rw [h.serverMask] at hmask
    rw [h.action]
    cases hserver : s.server with
    | absent => exact absurd hserver habsent
    | unblock =>
        rw [hserver] at hmask
        exact absurd (by decide) hmask
    | action => exact absurd hserver haction
    | loop => rfl
    | returned => rfl

/-- In a window a signal is not blocked and has no handler. -/
theorem window_of_protected {s : Process} (h : Consistent s) (hp : Protected s) : ¬Window s := by
  rintro (hmain | hmain | hserver)
  · have hmask : .term ∉ s.mainMask := by
      rw [h.mainMask, hmain]
      decide
    have hact := hp.main .term (Or.inl rfl) hmask
    rw [h.action, hmain] at hact
    exact absurd hact (by simp only [actionAt, or_true, if_true, reduceCtorEq, not_false_eq_true])
  · have hmask : .int ∉ s.mainMask := by
      rw [h.mainMask, hmain]
      decide
    have hact := hp.main .int (Or.inr rfl) hmask
    rw [h.action, hmain] at hact
    exact absurd hact (by simp only [actionAt, reduceCtorEq, or_self, if_false, not_false_eq_true])
  · have hmask : .usr1 ∉ s.serverMask := by
      rw [h.serverMask, hserver]
      decide
    have hact := hp.server (by rw [hserver]; decide) hmask
    rw [h.action, hserver] at hact
    exact absurd hact (by simp only [actionAt, reduceCtorEq, or_self, if_false, not_false_eq_true])

/-- The running server thread blocks every signal but SIGUSR1. -/
theorem serverMask_usr1 {s : Process} {sig : Signal} (h : Consistent s)
    (habsent : s.server ≠ .absent) (hmask : sig ∉ s.serverMask) : sig = .usr1 := by
  rw [h.serverMask] at hmask
  have hsub : ({.int, .term, .usr2} : Finset Signal) ⊆ serverMaskAt s.server := by
    cases hserver : s.server with
    | absent => exact absurd hserver habsent
    | unblock => decide
    | action => decide
    | loop => decide
    | returned => decide
  cases sig with
  | usr1 => rfl
  | term => exact absurd (hsub (by decide)) hmask
  | int => exact absurd (hsub (by decide)) hmask
  | usr2 => exact absurd (hsub (by decide)) hmask

/-- Acting on a signal kills the process exactly if it has no handler. -/
theorem act_killed_iff {s : Process} {sig : Signal} :
    (∃ sig', .killed sig' ∈ (s.act sig).1) ↔ s.action sig = none := by
  unfold Process.act
  rcases haction : s.action sig with _ | handler
  · exact iff_of_true ⟨sig, List.mem_cons_self⟩ rfl
  · refine iff_of_false ?_ (Option.some_ne_none handler)
    rintro ⟨sig', hmem⟩
    cases handler with
    | forward =>
        simp only at hmem
        split_ifs at hmem <;> exact absurd (List.mem_singleton.mp hmem) (by simp only
          [reduceCtorEq, not_false_eq_true])
    | bail => exact absurd hmem List.not_mem_nil

/-- Where `main` neither blocks nor handles a signal. -/
theorem main_exposed_iff (main : MainPc) (server : ServerPc) {sig : Signal}
    (hsig : sig = .term ∨ sig = .int) :
    sig ∉ mainMaskAt main ∧ actionAt main server sig = none ↔
      main = .actionTerm ∨ main = .actionInt ∧ sig = .int := by
  rcases hsig with rfl | rfl
  · cases main <;> cases server <;> decide
  · cases main <;> cases server <;> decide

/-- Where the server thread neither blocks nor handles SIGUSR1. -/
theorem server_exposed_iff (main : MainPc) {server : ServerPc} (habsent : server ≠ .absent) :
    .usr1 ∉ serverMaskAt server ∧ actionAt main server .usr1 = none ↔ server = .action := by
  cases server with
  | absent => exact absurd rfl habsent
  | unblock => cases main <;> decide
  | action => cases main <;> decide
  | loop => cases main <;> decide
  | returned => cases main <;> decide

/-- An event kills the process exactly if it delivers a signal in its window. -/
theorem killed_step_iff {s : Process} (h : Consistent s) (e : SignalEvent) :
    (∃ sig, .killed sig ∈ (signalMachine.step s e).1) ↔ Exposed s e := by
  have hquiet : ¬∃ sig : Signal, SignalAction.killed sig ∈ ([] : List SignalAction) := by
    rintro ⟨sig, hmem⟩
    exact absurd hmem List.not_mem_nil
  cases e with
  | main ok => exact iff_of_false hquiet id
  | server ok => exact iff_of_false hquiet id
  | kill sig =>
      refine iff_of_false ?_ id
      simp only [signalMachine]
      split_ifs
      · exact hquiet
      · exact hquiet
  | deliverMain sig =>
      simp only [signalMachine, Exposed]
      by_cases hmem : sig ∈ s.pending
      · have hkind : sig = .term ∨ sig = .int := by
          simpa only [Finset.mem_insert, Finset.mem_singleton] using h.pending hmem
        rw [← main_exposed_iff s.main s.server hkind, ← h.mainMask, ← h.action]
        by_cases hmask : sig ∈ s.mainMask
        · rw [if_neg fun hgo => hgo.2 hmask]
          exact iff_of_false hquiet fun hexp => hexp.2.1 hmask
        · rw [if_pos ⟨hmem, hmask⟩, act_killed_iff]
          exact ⟨fun hnone => ⟨hmem, hmask, hnone⟩, fun hexp => hexp.2.2⟩
      · rw [if_neg fun hgo => hmem hgo.1]
        exact iff_of_false hquiet fun hexp => hmem hexp.1
  | deliverServer sig =>
      simp only [signalMachine, Exposed]
      by_cases hgone : s.server = .absent ∨ s.server = .returned ∨ sig ∈ s.serverMask
      · rw [if_pos hgone]
        refine iff_of_false hquiet ?_
        rintro ⟨hmem, hserver⟩
        -- In the window SIGUSR1 is not blocked.
        have husr1 := Finset.mem_singleton.mp (h.serverPending hmem)
        rw [h.serverMask, hserver, husr1] at hgone
        exact absurd hgone (by decide)
      · rw [if_neg hgone]
        push Not at hgone
        rcases hgone with ⟨habsent, _, hmask⟩
        have husr1 := serverMask_usr1 h habsent hmask
        by_cases hthread : sig ∈ s.serverPending
        · rw [if_pos hthread, act_killed_iff, ← server_exposed_iff s.main habsent,
            ← h.serverMask, ← h.action, ← husr1]
          exact ⟨fun hnone => ⟨hthread, hmask, hnone⟩, fun hexp => hexp.2.2⟩
        · -- SIGUSR1 is never sent to the process.
          have hproc : sig ∉ s.pending := fun hmem => by
            have hkind := h.pending hmem
            rw [husr1] at hkind
            exact absurd hkind (by decide)
          rw [if_neg hthread, if_neg hproc]
          exact iff_of_false hquiet fun hexp => hthread hexp.1

/-- SIGUSR1 has reached the server thread or is on its way. -/
def Noticed (s : Process) : Prop := s.bail = true ∨ .usr1 ∈ s.serverPending

theorem mainStep_noticed {s s' : Process} {ok : Bool} (hs : s.mainStep ok = some s') :
    Noticed s' ↔ Noticed s := by
  unfold Process.mainStep at hs
  split at hs
  · split_ifs at hs
    rw [← Option.some.inj hs]
    rfl
  · rw [← Option.some.inj hs]
    rfl
  · rw [← Option.some.inj hs]
    rfl
  · rw [← Option.some.inj hs]
    rfl
  · rw [← Option.some.inj hs]
    rfl
  · split_ifs at hs
    rw [← Option.some.inj hs]

theorem serverStep_noticed {s s' : Process} {ok : Bool} (hs : s.serverStep ok = some s') :
    Noticed s' ↔ Noticed s := by
  unfold Process.serverStep at hs
  split at hs
  · rw [← Option.some.inj hs]
  · rw [← Option.some.inj hs]
    rfl
  · rw [← Option.some.inj hs]
    rfl
  · split_ifs at hs
    · rw [← Option.some.inj hs]
      rfl
    · rw [← Option.some.inj hs]
  · rw [← Option.some.inj hs]

/-- One event does not lose a forwarded signal: it is pending, or has set
    `bail`, or the process is gone. -/
theorem forwarded_step {s s' : Process} {e : SignalEvent} (h : Consistent s)
    (hs : (signalMachine.step s e).2 = some s')
    (hf : .forwarded ∈ (signalMachine.step s e).1 ∨ Noticed s) : Noticed s' := by
  rcases signalMachine_step_cases s e with ⟨ok, heq⟩ | ⟨ok, heq⟩ | ⟨sig, _, heq⟩ |
    ⟨sig, hmem, hmask, heq⟩ | ⟨sig, p, q, habsent, _, hmask, _, _, heq⟩ | heq
  · rw [heq] at hs hf
    exact (mainStep_noticed hs).mpr (hf.resolve_left List.not_mem_nil)
  · rw [heq] at hs hf
    exact (serverStep_noticed hs).mpr (hf.resolve_left List.not_mem_nil)
  · rw [heq] at hs hf
    rw [← Option.some.inj hs]
    exact hf.resolve_left List.not_mem_nil
  · rw [heq] at hs
    rcases act_cases hs with ⟨_, hgone, rfl⟩ | ⟨_, _, rfl⟩ | ⟨_, rfl⟩
    · rcases hgone with hgone | hgone
      · -- Before the server thread exists, `main` blocks the signals.
        exfalso
        have hkind := h.pending hmem
        rw [h.mainMask, h.absent.mp hgone] at hmask
        simp only [Finset.mem_insert, Finset.mem_singleton] at hkind
        exact absurd (by rcases hkind with rfl | rfl <;> decide) hmask
      · exact Or.inl (h.returned hgone)
    · exact Or.inr (Finset.mem_insert_self _ _)
    · exact Or.inl rfl
  · rw [heq] at hs
    -- The server thread acts on SIGUSR1, whose handler, if there is one, sets `bail`.
    have husr1 := serverMask_usr1 h habsent hmask
    have hforward : s.action .usr1 ≠ some .forward := by
      rw [h.action, actionAt]
      split_ifs <;> simp only [ne_eq, Option.some.injEq, reduceCtorEq, not_false_eq_true]
    rw [husr1] at hs
    rcases act_cases hs with ⟨haction, _⟩ | ⟨haction, _⟩ | ⟨_, rfl⟩
    · exact absurd haction hforward
    · exact absurd haction hforward
    · exact Or.inl rfl
  · rw [heq] at hs hf
    rw [← Option.some.inj hs]
    exact hf.resolve_left List.not_mem_nil

/-- A signal forwarded in a run has set `bail` or is still pending. -/
theorem forwarded_reaches {is : List SignalEvent} {s s' : Process} (h : Consistent s)
    (hr : signalMachine.Reaches s is s')
    (hf : .forwarded ∈ (signalMachine.run s is).1 ∨ Noticed s) : Noticed s' := by
  -- What the first event forwards is noticed from the second state on.
  induction is generalizing s with
  | nil =>
      rw [reaches_nil_iff] at hr
      rw [← hr]
      exact hf.resolve_left List.not_mem_nil
  | cons e is ih =>
      rcases reaches_cons_iff.mp hr with ⟨m, hm, hrest⟩
      have hgo : signalMachine.step s e = ((signalMachine.step s e).1, some m) := by
        rw [← hm]
      rw [run_cons_go is hgo, List.mem_append, or_assoc] at hf
      refine ih (consistent_step h hm) hrest ?_
      rcases hf with hf | hf | hf
      · exact Or.inr (forwarded_step h hm (Or.inl hf))
      · exact Or.inl hf
      · exact Or.inr (forwarded_step h hm (Or.inr hf))

/-- The process survives a run exactly if no signal is delivered in its window. -/
theorem alive_iff {is : List SignalEvent} {s : Process} (h : Consistent s) :
    (∀ sig, .killed sig ∉ (signalMachine.run s is).1) ↔
      signalMachine.Steps (fun s e => ¬Exposed s e) s is := by
  -- Induction on the events: the first one, and those behind it.
  induction is generalizing s with
  | nil => exact iff_of_true (fun _ => List.not_mem_nil) trivial
  | cons e is ih =>
      have hfirst := killed_step_iff h e
      rcases hstep : signalMachine.step s e with ⟨out, _ | m⟩
      · rw [hstep] at hfirst
        rw [run_cons_stop is hstep]
        constructor
        · intro halive
          refine ⟨fun hexp => ?_, fun m hm => ?_⟩
          · rcases hfirst.mpr hexp with ⟨sig, hmem⟩
            exact halive sig hmem
          · rw [hstep] at hm
            exact absurd hm.symm (Option.some_ne_none m)
        · intro hsteps sig hmem
          exact hsteps.1 (hfirst.mp ⟨sig, hmem⟩)
      · rw [hstep] at hfirst
        rw [run_cons_go is hstep]
        have hrest := ih (consistent_step h (by rw [hstep]) : Consistent m)
        constructor
        · intro halive
          refine ⟨fun hexp => ?_, fun m' hm' => ?_⟩
          · rcases hfirst.mpr hexp with ⟨sig, hmem⟩
            exact halive sig (List.mem_append_left _ hmem)
          · rw [hstep, Option.some.injEq] at hm'
            rw [← hm']
            exact hrest.mp fun sig hmem => halive sig (List.mem_append_right _ hmem)
        · intro hsteps sig hmem
          rcases List.mem_append.mp hmem with hmem | hmem
          · exact hsteps.1 (hfirst.mp ⟨sig, hmem⟩)
          · exact hrest.mpr (hsteps.2 m (by rw [hstep])) sig hmem

/-- A forwarded signal has set `bail` or is pending, and then sets it when it is
    delivered, except in the window. -/
theorem forwarded_leads {is : List SignalEvent} {s : Process}
    (hr : signalMachine.Reaches Process.start is s)
    (hf : .forwarded ∈ (signalMachine.run Process.start is).1) :
    s.bail = true ∨ (.usr1 ∈ s.serverPending ∧ (.usr1 ∉ s.serverMask → s.server ≠ .action →
      ∃ s', signalMachine.step s (.deliverServer .usr1) = ([], some s') ∧ s'.bail = true)) := by
  have h := consistent_reaches hr
  rcases forwarded_reaches consistent_start hr (Or.inl hf) with hbail | hpending
  · exact Or.inl hbail
  -- A thread that has not returned acts on the pending signal.
  by_cases hret : s.server = .returned
  · exact Or.inl (h.returned hret)
  refine Or.inr ⟨hpending, fun hmask hwindow => ?_⟩
  have habsent : s.server ≠ .absent := by
    intro ha
    rw [h.idle ha] at hpending
    exact absurd hpending (Finset.notMem_empty _)
  have hunblock : s.server ≠ .unblock := by
    intro hu
    rw [h.serverMask, hu] at hmask
    exact absurd hmask (by decide)
  have haction : s.action .usr1 = some .bail := by
    rw [h.action]
    cases hserver : s.server with
    | absent => exact absurd hserver habsent
    | unblock => exact absurd hserver hunblock
    | action => exact absurd hserver hwindow
    | loop => rfl
    | returned => rfl
  refine ⟨{ s with serverPending := s.serverPending.erase .usr1, bail := true }, ?_, rfl⟩
  simp only [signalMachine, Process.act, habsent, hret, hmask, hpending, or_self, if_false,
    if_true, haction]

/-- A call that unblocks signals leads into a window. -/
theorem window_of_unblocks {s : Process} {e : SignalEvent} (hun : Unblocks s e) :
    ∃ m, (signalMachine.step s e).2 = some m ∧ Window m := by
  cases e with
  | main ok =>
      have hmain : s.main = .unblock := hun
      refine ⟨{ s with main := .actionTerm, mainMask := s.mainMask \ {.int, .term} }, ?_,
        Or.inl rfl⟩
      simp only [signalMachine, Process.mainStep, hmain]
  | server ok =>
      have hserver : s.server = .unblock := hun
      refine ⟨{ s with server := .action, serverMask := s.serverMask \ {.usr1} }, ?_,
        Or.inr (Or.inr rfl)⟩
      simp only [signalMachine, Process.serverStep, hserver]
  | kill sig => exact hun.elim
  | deliverMain sig => exact hun.elim
  | deliverServer sig => exact hun.elim

/-- The threads before their calls that unblock signals. -/
def Early (s : Process) : Prop :=
  (s.main = .create ∨ s.main = .unblock) ∧ (s.server = .absent ∨ s.server = .unblock)

/-- Without such a call the threads stay there. -/
theorem early_step {s s' : Process} {e : SignalEvent} (h : Early s) (hun : ¬Unblocks s e)
    (hs : (signalMachine.step s e).2 = some s') : Early s' := by
  have hact {t : Process} {sig : Signal} (hs : (t.act sig).2 = some s') (ht : Early t) :
      Early s' := by
    rcases act_cases hs with ⟨_, _, rfl⟩ | ⟨_, _, rfl⟩ | ⟨_, rfl⟩
    · exact ht
    · exact ht
    · exact ht
  cases e with
  | main ok =>
      have hcreate : s.main = .create := h.1.resolve_right hun
      simp only [signalMachine, Process.mainStep, hcreate] at hs
      split_ifs at hs
      rw [← Option.some.inj hs]
      exact ⟨Or.inr rfl, Or.inr rfl⟩
  | server ok =>
      have habsent : s.server = .absent := h.2.resolve_right hun
      simp only [signalMachine, Process.serverStep, habsent] at hs
      rw [← Option.some.inj hs]
      exact h
  | kill sig =>
      simp only [signalMachine] at hs
      split_ifs at hs
      · rw [← Option.some.inj hs]
        exact h
      · rw [← Option.some.inj hs]
        exact h
  | deliverMain sig =>
      simp only [signalMachine] at hs
      split_ifs at hs
      · exact hact hs h
      · rw [← Option.some.inj hs]
        exact h
  | deliverServer sig =>
      simp only [signalMachine] at hs
      split_ifs at hs
      · rw [← Option.some.inj hs]
        exact h
      · exact hact hs h
      · exact hact hs h
      · rw [← Option.some.inj hs]
        exact h

theorem not_window_of_early {s : Process} (h : Early s) : ¬Window s := by
  rcases h with ⟨hmain | hmain, hserver | hserver⟩ <;> rintro (hw | hw | hw) <;>
    simp only [hmain, hserver, reduceCtorEq] at hw

/-- A signal delivered in its window is delivered in a window. -/
theorem window_of_exposed {s : Process} {e : SignalEvent} (h : Exposed s e) : Window s := by
  cases e with
  | deliverMain sig => exact h.2.imp id fun hint => Or.inl hint.1
  | deliverServer sig => exact Or.inr (Or.inr h.2)
  | main ok => exact h.elim
  | server ok => exact h.elim
  | kill sig => exact h.elim

/-- Every state of a run is protected, with what that is for, exactly if neither
    thread gets as far as to unblock its signals. In any run, the process
    survives exactly if no signal is delivered in its window, and a forwarded
    signal is never lost. -/
theorem safeRun_iff (is : List SignalEvent) :
    (SafeRun is ↔ signalMachine.Steps (fun s e => ¬Unblocks s e) Process.start is) ∧
    ((∀ sig, .killed sig ∉ (signalMachine.run Process.start is).1) ↔
      signalMachine.Steps (fun s e => ¬Exposed s e) Process.start is) ∧
    ∀ before after s, is = before ++ after → signalMachine.Reaches Process.start before s →
      .forwarded ∈ (signalMachine.run Process.start before).1 →
      s.bail = true ∨ (.usr1 ∈ s.serverPending ∧ (.usr1 ∉ s.serverMask → s.server ≠ .action →
        ∃ s', signalMachine.step s (.deliverServer .usr1) = ([], some s') ∧ s'.bail = true)) := by
  refine ⟨⟨fun hsafe => ?_, fun hsteps => ?_⟩, alive_iff consistent_start,
    fun before after s _ hr hf => forwarded_leads hr hf⟩
  · rw [steps_iff_forall]
    rintro before e after m heq hr hun
    rcases window_of_unblocks hun with ⟨m', hm', hwindow⟩
    have hreach := reaches_snoc_iff.mpr ⟨m, hr, hm'⟩
    refine window_of_protected (consistent_reaches hreach)
      (hsafe.states (before ++ [e]) after m' ?_ hreach) hwindow
    rw [heq, List.append_assoc, List.singleton_append]
  · have hearly : ∀ before after s, is = before ++ after →
        signalMachine.Reaches Process.start before s → Early s := by
      intro before after s heq hr
      rw [heq] at hsteps
      exact (reaches_invariant_steps Early _ (fun _ _ _ h hun hs => early_step h hun hs) hsteps
        ⟨Or.inl rfl, Or.inl rfl⟩ hr).1
    refine ⟨fun before after s heq hr => ?_, ?_, fun before after s heq hr hf => ?_⟩
    · exact protected_of_window (consistent_reaches hr)
        (not_window_of_early (hearly before after s heq hr))
    · refine (alive_iff consistent_start).mpr (steps_iff_forall.mpr ?_)
      intro before e after m heq hr hexp
      exact not_window_of_early (hearly before (e :: after) m heq hr) (window_of_exposed hexp)
    · refine (forwarded_leads hr hf).imp_right fun hpending => ⟨hpending.1, fun hmask => ?_⟩
      refine hpending.2 hmask fun hwindow => ?_
      exact not_window_of_early (hearly before after s heq hr) (Or.inr (Or.inr hwindow))

/-- A SIGTERM sent at start-up kills the process as soon as `main` unblocks
    it. -/
theorem sigterm_in_window :
    ¬SafeRun [.main true, .kill .term, .main true, .deliverMain .term] ∧
      (signalMachine.run Process.start
        [.main true, .kill .term, .main true, .deliverMain .term]).1 = [.killed .term] := by
  have hrun : (signalMachine.run Process.start
      [.main true, .kill .term, .main true, .deliverMain .term]).1 = [.killed .term] := by
    decide
  refine ⟨fun hsafe => hsafe.alive .term ?_, hrun⟩
  rw [hrun]
  exact List.mem_cons_self

/-- A SIGTERM sent just as early that is delivered when both threads are through
    with their calls is forwarded and sets `bail`. A run that ends before those
    calls is safe altogether. -/
theorem safeRun_startup :
    let is : List SignalEvent := [.main true, .kill .term, .server true, .server true, .main true,
      .main true, .main true, .deliverMain .term, .deliverServer .usr1]
    (∀ sig, .killed sig ∉ (signalMachine.run Process.start is).1) ∧
      (signalMachine.run Process.start is).1 = [.forwarded] ∧
      (signalMachine.run Process.start is).2.map Process.bail = some true ∧
      SafeRun [.main true, .kill .term, .deliverMain .term] := by
  intro is
  exact ⟨(safeRun_iff is).2.1.mpr (by decide), by decide, by decide,
    (safeRun_iff _).1.mpr (by decide)⟩

end Wallclock
