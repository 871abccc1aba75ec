import Mathlib.Algebra.Order.BigOperators.Group.List
import Mathlib.Algebra.Order.Monoid.Unbundled.Basic
import Wallclock.Library.Machine

/-!
# Paths of Moves

What a program does, told as a sequence of small moves.

A function of a program may do many things before it returns, and call back
into code that calls it again. `Move` is a relation that says what can happen
at one time, from one state with some outputs to the next, and `Moves` is any
number of moves with their outputs in a row. A function whose effect is a path
keeps whatever its moves keep, so every law about the program is checked on
the moves only.

`balance` is about accounts. An output puts something on an account or takes
something off it, and a state holds what is on it. If each move keeps the
books, so does a path. The amounts are in any commutative monoid: numbers
count, and multisets also tell which things they are. `bounded` is the same
with an inequality.

`conveys` is about order. A state holds a queue, and what leaves it in a move,
followed by what is in it then, is a sublist of what was in it and what entered
it. Then what leaves on a path has entered, in that order.

## Main definitions

* `Moves`: Moves in a row, with their outputs.

## Theorems

* `Moves.single`, `Moves.silent`, `Moves.trans`: One move, and more.
* `Moves.map`: A path is one of other moves, if each move is.
* `Moves.invariant`, `Moves.invariant_of`: What each move keeps.
* `Moves.balance`, `Moves.bounded`: Accounts.
* `Moves.conveys`: Queues.
* `Moves.exists_move`: The move that an output comes from.
* `StepMachine.run_path`: The run of a machine whose steps are paths.
-/

/-- Any number of moves, with their outputs in a row. -/
inductive Moves {σ ο : Type*} (Move : σ → List ο → σ → Prop) : σ → List ο → σ → Prop
  | nil (s : σ) : Moves Move s [] s
  | cons {s s' s'' : σ} {es es' : List ο} (hmove : Move s es s') (hpath : Moves Move s' es' s'') :
      Moves Move s (es ++ es') s''

namespace Moves

variable {σ τ ο α A : Type*} {Move : σ → List ο → σ → Prop} {s s' s'' : σ} {es es' : List ο}

theorem single (h : Move s es s') : Moves Move s es s' := by
  have hpath := Moves.cons h (Moves.nil s')
  rwa [List.append_nil] at hpath

/-- A move without outputs comes first. -/
theorem silent (hmove : Move s [] s') (hpath : Moves Move s' es s'') : Moves Move s es s'' :=
  Moves.cons hmove hpath

theorem trans (h : Moves Move s es s') (h' : Moves Move s' es' s'') :
    Moves Move s (es ++ es') s'' := by
  induction h with
  | nil s => exact h'
  | cons hmove _ ih =>
      rw [List.append_assoc]
      exact Moves.cons hmove (ih h')

/-- A path is one of other moves, where each of its moves is a path of those. -/
theorem map {Move' : τ → List ο → τ → Prop} (f : σ → τ)
    (h : ∀ s es s', Move s es s' → Moves Move' (f s) es (f s')) (hpath : Moves Move s es s') :
    Moves Move' (f s) es (f s') := by
  induction hpath with
  | nil s => exact Moves.nil (f s)
  | cons hmove _ ih => exact (h _ _ _ hmove).trans ih

theorem invariant (P : σ → Prop) (h : ∀ s es s', P s → Move s es s' → P s')
    (hpath : Moves Move s es s') (hs : P s) : P s' := by
  induction hpath with
  | nil s => exact hs
  | cons hmove _ ih => exact ih (h _ _ _ hs hmove)

/-- What each move keeps whose outputs satisfy a predicate. -/
theorem invariant_of (P : σ → Prop) (Ok : ο → Prop)
    (h : ∀ s es s', P s → (∀ e ∈ es, Ok e) → Move s es s' → P s') (hok : ∀ e ∈ es, Ok e)
    (hs : P s) (hpath : Moves Move s es s') : P s' := by
  induction hpath with
  | nil s => exact hs
  | cons hmove _ ih =>
      exact ih (fun e he => hok e (List.mem_append_right _ he))
        (h _ _ _ hs (fun e he => hok e (List.mem_append_left _ he)) hmove)

section Accounts

variable [AddCommMonoid A] {held : σ → A} {income expense : ο → A}

/-- A path keeps the books if each move does. -/
theorem balance (h : ∀ s es s', Move s es s' →
      held s + (es.map income).sum = (es.map expense).sum + held s')
    (hpath : Moves Move s es s') :
    held s + (es.map income).sum = (es.map expense).sum + held s' := by
  induction hpath with
  | nil s => simp only [List.map_nil, List.sum_nil, add_zero, zero_add]
  | @cons s s' s'' es es' hmove _ ih =>
      rw [List.map_append, List.map_append, List.sum_append, List.sum_append]
      -- The account after the first move is the one the rest starts from.
      calc held s + ((es.map income).sum + (es'.map income).sum)
          = (es.map expense).sum + (held s' + (es'.map income).sum) := by
            rw [← add_assoc, h _ _ _ hmove, add_assoc]
        _ = _ := by rw [ih, add_assoc]

/-- A path stays within its account if each move does. -/
theorem bounded [PartialOrder A] [IsOrderedAddMonoid A]
    (h : ∀ s es s', Move s es s' →
      (es.map expense).sum + held s' ≤ held s + (es.map income).sum)
    (hpath : Moves Move s es s') :
    (es.map expense).sum + held s' ≤ held s + (es.map income).sum := by
  induction hpath with
  | nil s => simp only [List.map_nil, List.sum_nil, add_zero, zero_add, le_refl]
  | @cons s s' s'' es es' hmove _ ih =>
      rw [List.map_append, List.map_append, List.sum_append, List.sum_append]
      calc (es.map expense).sum + (es'.map expense).sum + held s''
          ≤ (es.map expense).sum + (held s' + (es'.map income).sum) := by
            rw [add_assoc]
            exact add_le_add_right ih _
        _ ≤ held s + (es.map income).sum + (es'.map income).sum := by
            rw [← add_assoc]
            exact add_le_add_left (h _ _ _ hmove) _
        _ = _ := by rw [add_assoc]

end Accounts

/-- What leaves a queue on a path from a state with an invariant has entered it,
    in that order. -/
theorem conveys (P : σ → Prop) (hkeep : ∀ s es s', P s → Move s es s' → P s')
    {queue : σ → List α} {enter leave : ο → Option α}
    (h : ∀ s es s', P s → Move s es s' →
      (es.filterMap leave ++ queue s').Sublist (queue s ++ es.filterMap enter))
    (hpath : Moves Move s es s') (hs : P s) :
    (es.filterMap leave ++ queue s').Sublist (queue s ++ es.filterMap enter) := by
  induction hpath with
  | nil s =>
      rw [List.filterMap_nil, List.filterMap_nil, List.nil_append, List.append_nil]
  | @cons s s' s'' es es' hmove _ ih =>
      rw [List.filterMap_append, List.filterMap_append]
      -- The queue after the first move is the one the rest starts with.
      have hmid : (es.filterMap leave ++ (es'.filterMap leave ++ queue s'')).Sublist
          (es.filterMap leave ++ (queue s' ++ es'.filterMap enter)) :=
        (List.Sublist.refl _).append (ih (hkeep _ _ _ hs hmove))
      rw [List.append_assoc, ← List.append_assoc (queue s)]
      rw [← List.append_assoc (es.filterMap leave) (queue s')] at hmid
      exact hmid.trans ((h _ _ _ hs hmove).append (List.Sublist.refl _))

/-- Each output of a path is one of a move on it. -/
theorem exists_move {e : ο} {before after : List ο} (hpath : Moves Move s es s')
    (hes : es = before ++ e :: after) :
    ∃ t t' first last earlier later, Moves Move s first t ∧
      Move t (earlier ++ e :: later) t' ∧ Moves Move t' last s' ∧
      before = first ++ earlier ∧ after = later ++ last := by
  induction hpath generalizing before with
  | nil s => exact absurd hes.symm (by simp only [List.append_eq_nil_iff, reduceCtorEq, and_false,
      not_false_eq_true])
  | @cons s s' s'' es es' hmove hrest ih =>
      rcases List.append_eq_append_iff.mp hes with ⟨pre, hpre, hes'⟩ | ⟨post, hpost, hlast⟩
      · -- The output is one of a later move.
        rcases ih hes' with ⟨t, t', first, last, earlier, later, hfirst, hmove', hlast, hb, ha⟩
        refine ⟨t, t', es ++ first, last, earlier, later, Moves.cons hmove hfirst, hmove', hlast,
          ?_, ha⟩
        rw [hpre, hb, List.append_assoc]
      · cases post with
        | nil =>
            -- The first move ends just before it.
            rw [List.nil_append] at hlast
            have hnil : es' = [] ++ e :: after := hlast.symm
            rcases ih hnil with
              ⟨t, t', first, last, earlier, later, hfirst, hmove', hlast', hb, ha⟩
            refine ⟨t, t', es ++ first, last, earlier, later, Moves.cons hmove hfirst, hmove',
              hlast', ?_, ha⟩
            rw [List.append_nil] at hpost
            rw [List.append_assoc, ← hb, List.append_nil, hpost]
        | cons x later =>
            rw [List.cons_append, List.cons.injEq] at hlast
            rw [← hlast.1] at hpost
            exact ⟨s, s', [], es', before, later, Moves.nil s, hpost ▸ hmove, hrest, rfl, hlast.2⟩

end Moves

/-- The run of a machine is a path, if each step is from a state with an
    invariant of the moves. -/
theorem StepMachine.run_path {σ ι τ ο : Type*} {M : StepMachine σ ι ο}
    {Move : τ → List ο → τ → Prop} (view : σ → τ) (final : τ) (P : τ → Prop)
    (hkeep : ∀ s es s', P s → Move s es s' → P s')
    (hgo : ∀ s i s', P (view s) → (M.step s i).2 = some s' →
      Moves Move (view s) (M.step s i).1 (view s'))
    (hstop : ∀ s i, P (view s) → (M.step s i).2 = none → Moves Move (view s) (M.step s i).1 final)
    {s : σ} (hs : P (view s)) (is : List ι) :
    Moves Move (view s) (M.run s is).1 ((M.run s is).2.elim final view) := by
  induction is generalizing s with
  | nil => exact Moves.nil (view s)
  | cons i is ih =>
      rcases hm : M.step s i with ⟨out, _ | s'⟩
      · have hlast := hstop s i hs (by rw [hm])
        rw [hm] at hlast
        rw [run_cons_stop _ hm]
        exact hlast
      · have hfirst := hgo s i s' hs (by rw [hm])
        rw [hm] at hfirst
        rw [run_cons_go _ hm]
        exact hfirst.trans (ih (hfirst.invariant P hkeep hs))
