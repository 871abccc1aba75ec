import Mathlib.Data.List.Basic
import Mathlib.Data.List.Forall2
import Mathlib.Data.Option.Basic

/-!
# Step Machines

A machine that reads its inputs one at a time. Each input makes it emit a list
of outputs and then either go on in a new state or stop for good. The type of
inputs is where the outside world sits: messages, the results of system calls,
or the choices of a scheduler.

`run` folds a machine over a list of inputs. A machine that stops reads no
further input, so the outputs of a run end with those of the stopping step.

Safety is about every state a run passes through. `Reaches` names those
states together with the inputs that lead to them, and `reaches_invariant` is
the induction every invariant uses once. The inputs read so far are part of
the statement, so a statement about the history of a run needs no history in
the state.

`Simulates` is the step condition of a forward simulation between two machines
that read related inputs, and `run_simulates` lifts it to whole runs: the
outputs are equal, and the two runs stop together or end in related states.

`Buffers` is for a machine that does not emit its outputs at once. It keeps them
in a buffer, and reads other inputs in between, on which the abstract machine
does nothing. What it has emitted and what is in the buffer are then the outputs
of the abstract machine.

## Main definitions

* `StepMachine`: A machine given by its step function.
* `run`: The outputs of a list of inputs and the state after it, if any.
* `Reaches`: A list of inputs leads from one state to another.
* `Steps`: Every step of a run satisfies a predicate.
* `consumed`: The inputs a run reads.
* `Simulates`: One step of a machine is matched by one step of another.
* `Buffers`: The same up to a buffer.

## Theorems

* `run_nil`, `run_cons_stop`, `run_cons_go`: A run reads its inputs in order.
* `run_append`: A run over two lists is a run over the first, then the second.
* `run_append_go`: The same, where the first list does not stop the machine.
* `run_append_stop`: The same, where it does.
* `reaches_nil_iff`: No input leaves the machine where it is.
* `reaches_append_iff`: A path over two lists passes through a middle state.
* `reaches_cons_iff`: A path begins with its first step.
* `reaches_snoc_iff`: A path ends with its last step.
* `run_stops_iff`: A run stops at the first input whose step stops.
* `reaches_invariant`: What each step preserves holds after every run.
* `reaches_invariant_of`: The same, for runs whose inputs satisfy a predicate.
* `Steps.mono`: The relation may be weakened.
* `Steps.and_inputs`: A predicate on the inputs joins the relation.
* `reaches_invariant_steps`: The same, for runs whose steps satisfy a relation.
* `steps_cons_stop`, `steps_cons_go`: The steps of a run are the first one and the
  rest.
* `steps_iff_forall`: The steps of a run are those from the states it reaches.
* `steps_iff_reaches`: A relation that is exactly what a step needs to preserve a
  predicate.
* `run_outputs`: What every output of a step satisfies, every output of a run
  does.
* `run_filterMap`: Outputs that every step reads off its input are read off
  the inputs of the run.
* `run_forall₂`: So are outputs that are related to the input only.
* `run_simulates`: A step simulation lifts to whole runs.
* `run_simulates_stops`: It makes the two machines stop together.
* `Buffers.reaches`: A simulation of the same kind whose outputs wait in a buffer.
-/

/-- A machine that reads one input at a time. `none` as the next state means
    the machine has stopped. -/
structure StepMachine (σ ι ο : Type*) where
  step : σ → ι → List ο × Option σ

namespace StepMachine

variable {σ τ ι κ ο : Type*}

/-- The outputs of a list of inputs, and the state after it unless the machine
    stopped on the way. -/
def run (M : StepMachine σ ι ο) (s : σ) : List ι → List ο × Option σ
  | [] => ([], some s)
  | i :: is => match M.step s i with
    | (out, none) => (out, none)
    | (out, some s') => (out ++ (run M s' is).1, (run M s' is).2)

/-- The inputs lead the machine from the first state to the second. -/
def Reaches (M : StepMachine σ ι ο) (s : σ) (is : List ι) (s' : σ) : Prop :=
  (M.run s is).2 = some s'

/-- Every step of the run is taken from a state and with an input that are in
    the given relation. -/
def Steps (M : StepMachine σ ι ο) (P : σ → ι → Prop) (s : σ) : List ι → Prop
  | [] => True
  | i :: is => P s i ∧ ∀ s', (M.step s i).2 = some s' → Steps M P s' is

/-- The inputs a run reads: all of them, or those up to the one that stops the
    machine. -/
def consumed (M : StepMachine σ ι ο) (s : σ) : List ι → List ι
  | [] => []
  | i :: is => match (M.step s i).2 with
    | none => [i]
    | some s' => i :: consumed M s' is

variable {M : StepMachine σ ι ο}

theorem run_nil (s : σ) : M.run s [] = ([], some s) := rfl

theorem run_cons_stop {s : σ} {i : ι} {out : List ο} (is : List ι)
    (h : M.step s i = (out, none)) : M.run s (i :: is) = (out, none) := by
  simp only [run, h]

theorem run_cons_go {s s' : σ} {i : ι} {out : List ο} (is : List ι)
    (h : M.step s i = (out, some s')) :
    M.run s (i :: is) = (out ++ (M.run s' is).1, (M.run s' is).2) := by
  simp only [run, h]

/-- A run over two lists: where the first list stops the machine, the second
    is not read. -/
theorem run_append (s : σ) (is js : List ι) :
    M.run s (is ++ js) = match M.run s is with
      | (out, none) => (out, none)
      | (out, some s') => (out ++ (M.run s' js).1, (M.run s' js).2) := by
  induction is generalizing s with
  | nil => simp only [List.nil_append, run_nil]
  | cons i is ih =>
      rw [List.cons_append]
      rcases hstep : M.step s i with ⟨out, _ | s'⟩
      · rw [run_cons_stop _ hstep, run_cons_stop _ hstep]
      · rw [run_cons_go _ hstep, run_cons_go _ hstep, ih s']
        rcases M.run s' is with ⟨out', _ | s''⟩
        · rfl
        · simp only [List.append_assoc]

/-- A run over two lists, the first of which does not stop the machine. -/
theorem run_append_go {s s' : σ} {is : List ι} (js : List ι) (h : M.Reaches s is s') :
    M.run s (is ++ js) = ((M.run s is).1 ++ (M.run s' js).1, (M.run s' js).2) := by
  rcases hrun : M.run s is with ⟨out, next⟩
  have hnext : next = some s' := by
    rw [Reaches, hrun] at h
    exact h
  rw [run_append, hrun, hnext]

/-- A run whose first part stops the machine does not read the rest. -/
theorem run_append_stop {s : σ} {is : List ι} (js : List ι) (h : (M.run s is).2 = none) :
    M.run s (is ++ js) = M.run s is := by
  rcases hrun : M.run s is with ⟨out, next⟩
  have hnext : next = none := by
    rw [hrun] at h
    exact h
  rw [run_append, hrun, hnext]

theorem reaches_nil_iff {s s' : σ} : M.Reaches s [] s' ↔ s = s' := by
  simp only [Reaches, run_nil, Option.some.injEq]

theorem reaches_cons_iff {s s' : σ} {i : ι} {is : List ι} :
    M.Reaches s (i :: is) s' ↔ ∃ m, (M.step s i).2 = some m ∧ M.Reaches m is s' := by
  rcases hstep : M.step s i with ⟨out, _ | m⟩
  · simp only [Reaches, run_cons_stop _ hstep, reduceCtorEq, false_and, exists_false]
  · simp only [Reaches, run_cons_go _ hstep, Option.some.injEq, exists_eq_left']

theorem reaches_append_iff {s s' : σ} {is js : List ι} :
    M.Reaches s (is ++ js) s' ↔ ∃ m, M.Reaches s is m ∧ M.Reaches m js s' := by
  rw [Reaches, run_append]
  rcases hrun : M.run s is with ⟨out, _ | m⟩
  · simp only [Reaches, hrun, reduceCtorEq, false_and, exists_false]
  · simp only [Reaches, hrun, Option.some.injEq, exists_eq_left']

theorem reaches_snoc_iff {s s' : σ} {is : List ι} {i : ι} :
    M.Reaches s (is ++ [i]) s' ↔ ∃ m, M.Reaches s is m ∧ (M.step m i).2 = some s' := by
  simp only [reaches_append_iff, reaches_cons_iff, reaches_nil_iff, exists_eq_right]

/-- A run stops exactly when some prefix of its inputs reaches a state from
    which the next input stops the machine. -/
theorem run_stops_iff {s : σ} {is : List ι} :
    (M.run s is).2 = none ↔
      ∃ before i after m, is = before ++ i :: after ∧ M.Reaches s before m ∧
        (M.step m i).2 = none := by
  induction is generalizing s with
  | nil =>
      constructor
      · intro h
        simp only [run_nil, reduceCtorEq] at h
      · rintro ⟨before, i, after, m, heq, _, _⟩
        exact absurd heq.symm (by simp only [List.append_eq_nil_iff, reduceCtorEq, and_false,
          not_false_eq_true])
  | cons i is ih =>
      rcases hstep : M.step s i with ⟨out, _ | s'⟩
      · rw [run_cons_stop _ hstep]
        refine ⟨fun _ => ⟨[], i, is, s, rfl, reaches_nil_iff.mpr rfl, ?_⟩, fun _ => rfl⟩
        rw [hstep]
      · rw [run_cons_go _ hstep, ih]
        constructor
        · rintro ⟨before, j, after, m, rfl, hreach, hstop⟩
          refine ⟨i :: before, j, after, m, rfl, ?_, hstop⟩
          exact reaches_cons_iff.mpr ⟨s', by rw [hstep], hreach⟩
        · rintro ⟨before, j, after, m, heq, hreach, hstop⟩
          cases before with
          | nil =>
              -- The first input does not stop the machine.
              rw [reaches_nil_iff] at hreach
              rw [List.nil_append, List.cons.injEq] at heq
              rw [← hreach, ← heq.1, hstep] at hstop
              exact absurd hstop (by simp only [reduceCtorEq, not_false_eq_true])
          | cons b before =>
              rw [List.cons_append, List.cons.injEq] at heq
              rcases reaches_cons_iff.mp hreach with ⟨m', hm', hrest⟩
              rw [← heq.1, hstep, Option.some.injEq] at hm'
              rw [← hm'] at hrest
              exact ⟨before, j, after, m, heq.2, hrest, hstop⟩

/-- What every step preserves on inputs satisfying a predicate holds after
    every run over such inputs. -/
theorem reaches_invariant_of (P : σ → Prop) (Ok : ι → Prop)
    (hstep : ∀ s i s', P s → Ok i → (M.step s i).2 = some s' → P s')
    {s s' : σ} {is : List ι} (hok : ∀ i ∈ is, Ok i) (hs : P s) (hr : M.Reaches s is s') :
    P s' := by
  induction is generalizing s with
  | nil =>
      rw [reaches_nil_iff] at hr
      rwa [← hr]
  | cons i is ih =>
      rcases reaches_cons_iff.mp hr with ⟨m, hm, hrest⟩
      exact ih (fun j hj => hok j (List.mem_cons_of_mem _ hj))
        (hstep s i m hs (hok i List.mem_cons_self) hm) hrest

/-- What every step preserves holds after every run. -/
theorem reaches_invariant (P : σ → Prop)
    (hstep : ∀ s i s', P s → (M.step s i).2 = some s' → P s')
    {s s' : σ} {is : List ι} (hs : P s) (hr : M.Reaches s is s') : P s' :=
  reaches_invariant_of P (fun _ => True) (fun s i s' h _ => hstep s i s' h)
    (fun _ _ => trivial) hs hr

/-- The relation may be weakened. -/
theorem Steps.mono {P Q : σ → ι → Prop} (hPQ : ∀ s i, P s i → Q s i) {s : σ} {is : List ι}
    (h : M.Steps P s is) : M.Steps Q s is := by
  induction is generalizing s with
  | nil => trivial
  | cons i is ih => exact ⟨hPQ s i h.1, fun m hm => ih (h.2 m hm)⟩

/-- A predicate on the inputs of a run may be added to the relation. -/
theorem Steps.and_inputs {P : σ → ι → Prop} {R : ι → Prop} {s : σ} {is : List ι}
    (h : M.Steps P s is) (hr : ∀ i ∈ is, R i) : M.Steps (fun s i => P s i ∧ R i) s is := by
  induction is generalizing s with
  | nil => trivial
  | cons i is ih =>
      exact ⟨⟨h.1, hr i List.mem_cons_self⟩, fun m hm =>
        ih (h.2 m hm) fun j hj => hr j (List.mem_cons_of_mem i hj)⟩

/-- What every step preserves that satisfies a relation holds after every run
    of such steps, and the rest of the run consists of such steps as well. -/
theorem reaches_invariant_steps (P : σ → Prop) (Q : σ → ι → Prop)
    (hstep : ∀ s i s', P s → Q s i → (M.step s i).2 = some s' → P s')
    {s s' : σ} {is js : List ι} (hsteps : M.Steps Q s (is ++ js)) (hs : P s)
    (hr : M.Reaches s is s') : P s' ∧ M.Steps Q s' js := by
  induction is generalizing s with
  | nil =>
      rw [reaches_nil_iff] at hr
      rw [← hr]
      exact ⟨hs, hsteps⟩
  | cons i is ih =>
      rcases reaches_cons_iff.mp hr with ⟨m, hm, hrest⟩
      exact ih (hsteps.2 m hm) (hstep s i m hs hsteps.1 hm) hrest

theorem steps_cons_stop {P : σ → ι → Prop} {s : σ} {i : ι} (is : List ι)
    (h : (M.step s i).2 = none) : M.Steps P s (i :: is) ↔ P s i := by
  refine ⟨And.left, fun hi => ⟨hi, fun m hm => ?_⟩⟩
  rw [h] at hm
  exact absurd hm.symm (Option.some_ne_none m)

theorem steps_cons_go {P : σ → ι → Prop} {s s' : σ} {i : ι} (is : List ι)
    (h : (M.step s i).2 = some s') : M.Steps P s (i :: is) ↔ P s i ∧ M.Steps P s' is := by
  refine and_congr_right fun _ => ⟨fun hall => hall s' h, fun hrest m hm => ?_⟩
  rw [h, Option.some.injEq] at hm
  exact hm ▸ hrest

instance decidableSteps (M : StepMachine σ ι ο) (P : σ → ι → Prop) [∀ s i, Decidable (P s i)] :
    ∀ (s : σ) (is : List ι), Decidable (M.Steps P s is)
  | _, [] => isTrue trivial
  | s, i :: is => match h : (M.step s i).2 with
    | none => decidable_of_iff' _ (steps_cons_stop is h)
    | some m =>
      have := decidableSteps M P m is
      decidable_of_iff' _ (steps_cons_go is h)

/-- The steps of a run are those from the states that it reaches. -/
theorem steps_iff_forall {P : σ → ι → Prop} {s : σ} {is : List ι} :
    M.Steps P s is ↔
      ∀ before i after m, is = before ++ i :: after → M.Reaches s before m → P m i := by
  constructor
  · intro hsteps before i after m heq hm
    rw [heq] at hsteps
    exact (reaches_invariant_steps (fun _ => True) P (fun _ _ _ _ _ _ => trivial) hsteps trivial
      hm).2.1
  · intro hall
    induction is generalizing s with
    | nil => trivial
    | cons i is ih =>
        refine ⟨hall [] i is s rfl (reaches_nil_iff.mpr rfl), fun m hm => ih ?_⟩
        intro before j after t heq ht
        exact hall (i :: before) j after t (by rw [heq, List.cons_append])
          (reaches_cons_iff.mpr ⟨m, hm, ht⟩)

/-- If a step preserves a predicate exactly if it satisfies a relation, then the
    predicate holds in every state of a run exactly if all of its steps do. -/
theorem steps_iff_reaches {P : σ → Prop} {Q : σ → ι → Prop}
    (hstep : ∀ s i, P s → ∃ s', (M.step s i).2 = some s' ∧ (P s' ↔ Q s i)) {s : σ} (hs : P s)
    (is : List ι) :
    M.Steps Q s is ↔ ∀ before after m, is = before ++ after → M.Reaches s before m → P m := by
  constructor
  · intro hsteps before after m heq hm
    rw [heq] at hsteps
    refine (reaches_invariant_steps P Q (fun s i s' hP hQ hs' => ?_) hsteps hs hm).1
    rcases hstep s i hP with ⟨t, ht, hiff⟩
    rw [hs', Option.some.injEq] at ht
    rw [ht]
    exact hiff.mpr hQ
  · intro hall
    induction is generalizing s with
    | nil => trivial
    | cons i is ih =>
        rcases hstep s i hs with ⟨m, hm, hiff⟩
        have hPm : P m := hall [i] is m rfl (reaches_cons_iff.mpr ⟨m, hm, rfl⟩)
        refine ⟨hiff.mp hPm, fun m' hm' => ?_⟩
        rw [hm, Option.some.injEq] at hm'
        rw [← hm']
        exact ih hPm fun before after t heq ht => hall (i :: before) after t
          (by rw [heq, List.cons_append]) (reaches_cons_iff.mpr ⟨m, hm, ht⟩)

/-- What holds of every output of every step holds of every output of the run. -/
theorem run_outputs {E : ο → Prop} (P : σ → Prop) (Q : σ → ι → Prop)
    (hout : ∀ s i, P s → Q s i → ∀ o ∈ (M.step s i).1, E o)
    (hstep : ∀ s i s', P s → Q s i → (M.step s i).2 = some s' → P s')
    {s : σ} {is : List ι} (hsteps : M.Steps Q s is) (hs : P s) : ∀ o ∈ (M.run s is).1, E o := by
  induction is generalizing s with
  | nil => exact fun o ho => absurd ho List.not_mem_nil
  | cons i is ih =>
      rcases hnext : M.step s i with ⟨out, _ | s'⟩
      · have hfirst := hout s i hs hsteps.1
        rw [hnext] at hfirst
        rw [run_cons_stop is hnext]
        exact hfirst
      · have hfirst := hout s i hs hsteps.1
        have hs' : (M.step s i).2 = some s' := congrArg Prod.snd hnext
        have hrest := ih (hsteps.2 s' hs') (hstep s i s' hs hsteps.1 hs')
        rw [hnext] at hfirst
        rw [run_cons_go is hnext]
        intro o ho
        exact (List.mem_append.mp ho).elim (hfirst o) (hrest o)

/-- If the outputs of every step, as far as `f` sees them, are what `g` reads
    off its input, then the outputs of a run are what `g` reads off its
    inputs. -/
theorem run_filterMap {β : Type*} {f : ο → Option β} {g : ι → Option β} (P : σ → Prop)
    (Q : σ → ι → Prop)
    (hout : ∀ s i, P s → Q s i → (M.step s i).1.filterMap f = (g i).toList)
    (hstep : ∀ s i s', P s → Q s i → (M.step s i).2 = some s' → P s')
    {s : σ} {is : List ι} (hsteps : M.Steps Q s is) (hs : P s) :
    (M.run s is).1.filterMap f = (M.consumed s is).filterMap g := by
  -- Induction on the inputs: the outputs of the first step, then those of the rest.
  induction is generalizing s with
  | nil => rfl
  | cons i is ih =>
      have hhead := hout s i hs hsteps.1
      rcases hm : M.step s i with ⟨out, _ | m⟩
      · -- The machine stops here, and no other input is consumed.
        rw [hm] at hhead
        rw [run_cons_stop _ hm, consumed, hm, hhead]
        cases hg : g i <;> simp only [List.filterMap_cons, hg, List.filterMap_nil,
          Option.toList_none, Option.toList_some]
      · rw [hm] at hhead
        have htail := ih (hsteps.2 m (by rw [hm])) (hstep s i m hs hsteps.1 (by rw [hm]))
        rw [run_cons_go _ hm, consumed, hm, List.filterMap_append, hhead, htail]
        cases hg : g i <;> simp only [List.filterMap_cons, hg, Option.toList_none,
          Option.toList_some, List.nil_append, List.singleton_append]

/-- If every step has one output, as far as `f` sees them, for an input that is
    selected and none for another, then the outputs of a run that does not stop
    belong to its selected inputs, in their order. -/
theorem run_forall₂ {β : Type*} {f : ο → Option β} {sel : ι → Bool} {R : ι → β → Prop}
    (P : σ → Prop) (Q : σ → ι → Prop)
    (hout : ∀ s i s', P s → Q s i → (M.step s i).2 = some s' →
      List.Forall₂ R ([i].filter sel) ((M.step s i).1.filterMap f))
    (hstep : ∀ s i s', P s → Q s i → (M.step s i).2 = some s' → P s')
    {s s' : σ} {is : List ι} (hsteps : M.Steps Q s is) (hs : P s) (hr : M.Reaches s is s') :
    List.Forall₂ R (is.filter sel) ((M.run s is).1.filterMap f) := by
  induction is generalizing s with
  | nil => exact List.Forall₂.nil
  | cons i is ih =>
      rcases reaches_cons_iff.mp hr with ⟨m, hm, hrest⟩
      have hhead := hout s i m hs hsteps.1 hm
      have htail := ih (hsteps.2 m hm) (hstep s i m hs hsteps.1 hm) hrest
      rw [run_cons_go is (Prod.ext rfl hm), List.filterMap_append,
        ← List.singleton_append, List.filter_append]
      exact List.rel_append hhead htail

/-- The step condition of a forward simulation: on related states and an
    admissible input the two machines emit the same outputs and stop together
    or move to related states. -/
structure Simulates (M : StepMachine σ ι ο) (N : StepMachine τ κ ο) (f : ι → κ)
    (Ok : ι → Prop) (R : σ → τ → Prop) : Prop where
  out : ∀ s t i, R s t → Ok i → (M.step s i).1 = (N.step t (f i)).1
  next : ∀ s t i, R s t → Ok i → Option.Rel R (M.step s i).2 (N.step t (f i)).2

/-- A step simulation lifts to whole runs. -/
theorem run_simulates {N : StepMachine τ κ ο} {f : ι → κ} {Ok : ι → Prop} {R : σ → τ → Prop}
    (h : Simulates M N f Ok R) {s : σ} {t : τ} (is : List ι) (hok : ∀ i ∈ is, Ok i)
    (hst : R s t) :
    (M.run s is).1 = (N.run t (is.map f)).1 ∧
      Option.Rel R (M.run s is).2 (N.run t (is.map f)).2 := by
  induction is generalizing s t with
  | nil => exact ⟨rfl, Option.Rel.some hst⟩
  | cons i is ih =>
      have hout := h.out s t i hst (hok i List.mem_cons_self)
      have hnext := h.next s t i hst (hok i List.mem_cons_self)
      rw [List.map_cons]
      rcases hM : M.step s i with ⟨outM, nextM⟩
      rcases hN : N.step t (f i) with ⟨outN, nextN⟩
      rw [hM, hN] at hout hnext
      simp only at hout hnext
      -- The two machines stop together or go on together.
      cases hnext with
      | none =>
          rw [run_cons_stop _ hM, run_cons_stop _ hN]
          exact ⟨hout, Option.Rel.none⟩
      | some hrel =>
          rcases ih (fun j hj => hok j (List.mem_cons_of_mem _ hj)) hrel with ⟨ho, hs⟩
          rw [run_cons_go _ hM, run_cons_go _ hN]
          exact ⟨by simp only [hout, ho], hs⟩

/-- Machines related by a step simulation stop on the same inputs. -/
theorem run_simulates_stops {N : StepMachine τ κ ο} {f : ι → κ} {Ok : ι → Prop} {R : σ → τ → Prop}
    (h : Simulates M N f Ok R) {s : σ} {t : τ} (is : List ι) (hok : ∀ i ∈ is, Ok i)
    (hst : R s t) : (M.run s is).2 = none ↔ (N.run t (is.map f)).2 = none := by
  have hnext := (run_simulates h is hok hst).2
  rcases hM : (M.run s is).2 with _ | s'
  · rw [hM] at hnext
    rcases hN : (N.run t (is.map f)).2 with _ | t'
    · simp only
    · rw [hN] at hnext
      cases hnext
  · rw [hM] at hnext
    rcases hN : (N.run t (is.map f)).2 with _ | t'
    · rw [hN] at hnext
      cases hnext
    · simp only [reduceCtorEq]

/-- One step of a machine `M` with a buffer, from related states: on an input that
    `sel` passes on, `N` takes a step, and its outputs are those that `M` emits
    or adds to the buffer. On any other input `N` takes none. -/
structure Buffers {ο' β : Type*} (M : StepMachine σ ι ο) (N : StepMachine τ κ ο')
    (sel : ι → Option κ) (R : σ → τ → Prop) (Q : σ → ι → Prop) (buf : σ → List β)
    (f : ο → Option β) (g : ο' → Option β) : Prop where
  step : ∀ s t i k, R s t → Q s i → sel i = some k → ∃ s' t',
    (M.step s i).2 = some s' ∧ (N.step t k).2 = some t' ∧ R s' t' ∧
      (M.step s i).1.filterMap f ++ buf s' = buf s ++ (N.step t k).1.filterMap g
  still : ∀ s t i, R s t → Q s i → sel i = none → ∃ s', (M.step s i).2 = some s' ∧ R s' t ∧
    (M.step s i).1.filterMap f ++ buf s' = buf s

/-- Up to the buffer, runs have the same outputs. -/
theorem Buffers.reaches {ο' β : Type*} {N : StepMachine τ κ ο'} {sel : ι → Option κ}
    {R : σ → τ → Prop} {Q : σ → ι → Prop} {buf : σ → List β} {f : ο → Option β}
    {g : ο' → Option β} (h : Buffers M N sel R Q buf f g) {s : σ} {t : τ} {is : List ι}
    (hQ : M.Steps Q s is) (hR : R s t) :
    ∃ s' t', M.Reaches s is s' ∧ N.Reaches t (is.filterMap sel) t' ∧ R s' t' ∧
      (M.run s is).1.filterMap f ++ buf s' =
        buf s ++ (N.run t (is.filterMap sel)).1.filterMap g := by
  induction is generalizing s t with
  | nil => exact ⟨s, t, rfl, rfl, hR, (List.append_nil (buf s)).symm⟩
  | cons i is ih =>
      rcases hsel : sel i with _ | k
      · rcases h.still s t i hR hQ.1 hsel with ⟨m, hm, hRm, hout⟩
        rcases ih (hQ.2 m hm) hRm with ⟨s', t', hs', ht', hR', hout'⟩
        refine ⟨s', t', reaches_cons_iff.mpr ⟨m, hm, hs'⟩, ?_, hR', ?_⟩
        · rw [List.filterMap_cons_none hsel]
          exact ht'
        · -- What was in the buffer is emitted first.
          rw [run_cons_go is (Prod.ext rfl hm), List.filterMap_append, List.append_assoc, hout',
            ← List.append_assoc, hout, List.filterMap_cons_none hsel]
      · rcases h.step s t i k hR hQ.1 hsel with ⟨m, n, hm, hn, hRm, hout⟩
        rcases ih (hQ.2 m hm) hRm with ⟨s', t', hs', ht', hR', hout'⟩
        refine ⟨s', t', reaches_cons_iff.mpr ⟨m, hm, hs'⟩, ?_, hR', ?_⟩
        · rw [List.filterMap_cons_some hsel]
          exact reaches_cons_iff.mpr ⟨n, hn, ht'⟩
        · rw [run_cons_go is (Prod.ext rfl hm), List.filterMap_append, List.append_assoc, hout',
            ← List.append_assoc, hout, List.filterMap_cons_some hsel,
            run_cons_go _ (Prod.ext rfl hn), List.filterMap_append, List.append_assoc]

end StepMachine
