import Mathlib.Data.Finset.Card

/-!
# Descriptor Tables

Small integers that name kernel objects, and what a program does to them.

A table keeps apart the numbers the program has opened and not closed since
(`held`) from those that were open before it started (`inherited`). Opening
takes a number that is not in use; which one is left to an `Allocator`. A
close of a held number gives it back. Any other close is recorded: it is a
mistake of the program, whether the number was closed before, belongs to
somebody else or is no descriptor at all. A call that failed leaves -1 where a
number should be, so the argument of a close is an optional number.

Code that closes exactly what it opened leaves the table as it was, and
`close_openNew` is that fact for one descriptor. `close_three` is the same for
three, closed in an order other than that of opening them.

## Main definitions

* `Allocator`: The choice of an unused number.
* `Allocator.Lowest`: The choice is the lowest unused number.
* `Allocator.lowest`: That choice.
* `Table`: The open descriptors, and the mistaken closes.
* `Table.openNew`: Opening a descriptor.
* `Table.close`: Closing a descriptor.
* `Table.Grows`: A table gains descriptors and nothing else.

## Theorems

* `lowest_lowest`: The choice of the operating system is the lowest.
* `pick_le_card`: The lowest unused number is bounded by the numbers in use.
* `held_openNew`, `inherited_openNew`, `fresh_openNew`: The effect of opening.
* `openNew_le_card`: The number opened is bounded by the open ones.
* `close_of_mem`: Closing a held number.
* `close_of_notMem`: Closing any other number is recorded.
* `strays_close_ne_nil`: Recorded closes stay recorded.
* `inherited_close_subset`: A close opens nothing.
* `close_openNew`: Opening and closing again changes nothing.
* `close_older`: Closing the older of two descriptors.
* `openNew_eq`: Opening, in terms of its results.
* `close_three`: Opening three descriptors and closing them in another order.
* `Grows.refl`, `Grows.trans`, `grows_openNew`: How tables grow.
-/

namespace Descriptor

/-- A choice of a number that is not in use. -/
structure Allocator where
  pick : Finset ℕ → ℕ
  fresh : ∀ used, pick used ∉ used

/-- The number chosen is the lowest unused one. -/
def Allocator.Lowest (K : Allocator) : Prop :=
  ∀ used n, n < K.pick used → n ∈ used

/-- With `n` numbers in use, the lowest unused number is at most `n`. -/
theorem pick_le_card {K : Allocator} (h : K.Lowest) (used : Finset ℕ) :
    K.pick used ≤ used.card := by
  have hsub : Finset.range (K.pick used) ⊆ used := by
    intro n hn
    exact h used n (Finset.mem_range.mp hn)
  have hcard := Finset.card_le_card hsub
  rwa [Finset.card_range] at hcard

/-- The choice an operating system makes: the lowest unused number. -/
def Allocator.lowest : Allocator where
  pick used := ((List.range (used.card + 1)).find? (· ∉ used)).getD 0
  fresh := by
    intro used
    cases hfind : (List.range (used.card + 1)).find? (· ∉ used) with
    | some n =>
        have hn := List.find?_some hfind
        exact of_decide_eq_true hn
    | none =>
        -- More numbers than are in use cannot all be in use.
        exfalso
        rw [List.find?_eq_none] at hfind
        have hsub : Finset.range (used.card + 1) ⊆ used := by
          intro n hn
          have hn' := hfind n (List.mem_range.mpr (Finset.mem_range.mp hn))
          simpa only [decide_not, Bool.not_eq_true', decide_eq_false_iff_not,
            Decidable.not_not] using hn'
        have hcard := Finset.card_le_card hsub
        rw [Finset.card_range] at hcard
        omega

theorem lowest_lowest : Allocator.lowest.Lowest := by
  intro used n hn
  by_contra hnot
  simp only [Allocator.lowest] at hn
  cases hfind : (List.range (used.card + 1)).find? (· ∉ used) with
  | none =>
      rw [hfind] at hn
      exact absurd hn (Nat.not_lt_zero n)
  | some m =>
      rw [hfind, Option.getD_some] at hn
      have hmin := (List.find?_range_eq_some.mp hfind).2.2 n hn
      simp only [hnot, not_false_eq_true, decide_true, Bool.not_true, Bool.false_eq_true] at hmin

/-- The open descriptors, and the closes that closed nothing of the program's. -/
structure Table where
  held : Finset ℕ
  inherited : Finset ℕ
  strays : List (Option ℕ)
deriving DecidableEq

namespace Table

/-- Open a new descriptor. -/
def openNew (K : Allocator) (t : Table) : ℕ × Table :=
  (K.pick (t.held ∪ t.inherited),
    { t with held := insert (K.pick (t.held ∪ t.inherited)) t.held })

/-- Close a descriptor. -/
def close (t : Table) (fd : Option ℕ) : Table :=
  match fd with
  | none => { t with strays := t.strays ++ [none] }
  | some n =>
    if n ∈ t.held then { t with held := t.held.erase n }
    else { t with inherited := t.inherited.erase n, strays := t.strays ++ [some n] }

variable {K : Allocator} {t : Table}

theorem fresh_openNew (K : Allocator) (t : Table) : (t.openNew K).1 ∉ t.held := by
  intro h
  exact K.fresh (t.held ∪ t.inherited) (Finset.mem_union_left _ h)

@[simp] theorem held_openNew : (t.openNew K).2.held = insert (t.openNew K).1 t.held := rfl

@[simp] theorem inherited_openNew : (t.openNew K).2.inherited = t.inherited := rfl

/-- The lowest choice is bounded by the number of open descriptors. -/
theorem openNew_le_card (hK : K.Lowest) (t : Table) :
    (t.openNew K).1 ≤ t.held.card + t.inherited.card :=
  (pick_le_card hK _).trans (Finset.card_union_le _ _)

theorem close_of_mem {n : ℕ} (h : n ∈ t.held) :
    t.close (some n) = { t with held := t.held.erase n } := if_pos h

theorem close_of_notMem {fd : Option ℕ} (h : ∀ n, fd = some n → n ∉ t.held) :
    (t.close fd).held = t.held ∧ (t.close fd).strays = t.strays ++ [fd] := by
  cases fd with
  | none => exact ⟨rfl, rfl⟩
  | some n =>
      rw [close, if_neg (h n rfl)]
      exact ⟨rfl, rfl⟩

/-- A mistaken close stays on record. -/
theorem strays_close_ne_nil (fd : Option ℕ) (h : t.strays ≠ []) : (t.close fd).strays ≠ [] := by
  cases fd with
  | none => exact List.append_ne_nil_of_right_ne_nil _ (List.cons_ne_nil _ _)
  | some n =>
      unfold close
      by_cases hn : n ∈ t.held
      · simp only [hn, if_true]
        exact h
      · simp only [hn, if_false]
        exact List.append_ne_nil_of_right_ne_nil _ (List.cons_ne_nil _ _)

/-- A close takes nothing away but what it closes. -/
theorem inherited_close_subset (fd : Option ℕ) : (t.close fd).inherited ⊆ t.inherited := by
  cases fd with
  | none => exact Finset.Subset.refl _
  | some n =>
      unfold close
      by_cases hn : n ∈ t.held
      · simp only [hn, if_true]
        exact Finset.Subset.refl _
      · simp only [hn, if_false]
        exact Finset.erase_subset _ _

/-- Opening a descriptor and closing it changes nothing. -/
@[simp] theorem close_openNew : (t.openNew K).2.close (some (t.openNew K).1) = t := by
  rw [close_of_mem (Finset.mem_insert_self _ _), held_openNew,
    Finset.erase_insert (fresh_openNew K t)]
  rfl

/-- Closing the older of two descriptors leaves the newer one. -/
theorem close_older :
    ((t.openNew K).2.openNew K).2.close (some (t.openNew K).1)
      = { t with held := insert ((t.openNew K).2.openNew K).1 t.held } := by
  have hne : ((t.openNew K).2.openNew K).1 ≠ (t.openNew K).1 := by
    intro h
    exact fresh_openNew K (t.openNew K).2 (h ▸ Finset.mem_insert_self _ _)
  rw [close_of_mem (Finset.mem_insert_of_mem (Finset.mem_insert_self _ _)), held_openNew,
    held_openNew, Finset.erase_insert_of_ne hne, Finset.erase_insert (fresh_openNew K t)]
  rfl

/-- What opening does, for a call whose result has a name. -/
theorem openNew_eq {a : ℕ} {t' : Table} (h : t.openNew K = (a, t')) :
    a ∉ t.held ∧ t' = { t with held := insert a t.held } := by
  have ha := fresh_openNew K t
  rw [h] at ha
  refine ⟨ha, ?_⟩
  rw [openNew, Prod.mk.injEq] at h
  rw [← h.2, ← h.1]

/-- Opening three descriptors and closing the second, the first and the third
    changes nothing. -/
theorem close_three {a b c : ℕ} {t₁ t₂ t₃ : Table} (h₁ : t.openNew K = (a, t₁))
    (h₂ : t₁.openNew K = (b, t₂)) (h₃ : t₂.openNew K = (c, t₃)) :
    ((t₃.close (some b)).close (some a)).close (some c) = t := by
  rcases openNew_eq h₁ with ⟨ha, rfl⟩
  rcases openNew_eq h₂ with ⟨hb, rfl⟩
  rcases openNew_eq h₃ with ⟨hc, rfl⟩
  simp only [Finset.mem_insert, not_or] at hb hc
  -- The three numbers are new, so what is left is what was held.
  have hset : (((insert c (insert b (insert a t.held))).erase b).erase a).erase c = t.held := by
    ext n
    simp only [Finset.mem_erase, Finset.mem_insert]
    constructor
    · rintro ⟨hnc, hna, hnb, rfl | rfl | rfl | hn⟩
      · exact absurd rfl hnc
      · exact absurd rfl hnb
      · exact absurd rfl hna
      · exact hn
    · intro hn
      refine ⟨?_, ?_, ?_, Or.inr (Or.inr (Or.inr hn))⟩
      · rintro rfl
        exact hc.2.2 hn
      · rintro rfl
        exact ha hn
      · rintro rfl
        exact hb.2 hn
  have hbmem : b ∈ insert c (insert b (insert a t.held)) :=
    Finset.mem_insert_of_mem (Finset.mem_insert_self _ _)
  have hamem : a ∈ (insert c (insert b (insert a t.held))).erase b :=
    Finset.mem_erase.mpr ⟨fun h => hb.1 h.symm,
      Finset.mem_insert_of_mem (Finset.mem_insert_of_mem (Finset.mem_insert_self _ _))⟩
  have hcmem : c ∈ ((insert c (insert b (insert a t.held))).erase b).erase a :=
    Finset.mem_erase.mpr ⟨hc.2.1, Finset.mem_erase.mpr ⟨hc.1, Finset.mem_insert_self _ _⟩⟩
  simp only [close, hbmem, hamem, hcmem, if_true, hset]

/-- The table has gained descriptors and nothing else. -/
structure Grows (t t' : Table) : Prop where
  held : t.held ⊆ t'.held
  inherited : t'.inherited = t.inherited
  strays : t'.strays = t.strays

theorem Grows.refl (t : Table) : Grows t t := ⟨Finset.Subset.refl _, rfl, rfl⟩

theorem Grows.trans {t t' t'' : Table} (h : Grows t t') (h' : Grows t' t'') : Grows t t'' :=
  ⟨h.held.trans h'.held, h'.inherited.trans h.inherited, h'.strays.trans h.strays⟩

theorem grows_openNew (K : Allocator) (t : Table) : Grows t (t.openNew K).2 :=
  ⟨Finset.subset_insert _ _, rfl, rfl⟩

end Table

end Descriptor
