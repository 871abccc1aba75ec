import Mathlib.Data.List.Pairwise
import Mathlib.Order.Lattice

/-!
# Ranges in Order

Lists whose members occupy ranges that neither overlap nor change places: each
ends before the next begins. Such a list is a map from the points that it
covers to its members. A search finds the one member that covers a point, and
the keys that the members have within their ranges are in order altogether.

The ends of a range are functions of the member, so that the members may be
anything and change as long as their ranges do not.

## Main definitions

* `InOrder`: The ranges of a list are in order.

## Theorems

* `mem_take_append_cons_drop`: What is in a list with a new member.
* `InOrder.nil`, `InOrder.sublist`, `InOrder.map`, `InOrder.insert`: Lists in
  order.
* `InOrder.eq_of_covers`: A point is covered once.
* `InOrder.find`: What covers it is found.
* `InOrder.keys`: Keys within the ranges are in order.
-/

/-- Each range of a list ends before the next one begins. -/
structure InOrder {α ι : Type*} [LinearOrder ι] (lo hi : α → ι) (l : List α) : Prop where
  valid : ∀ a ∈ l, lo a ≤ hi a
  sorted : l.Pairwise fun a b => hi a < lo b

/-- What is in a list with a new member is the new member or an old one. -/
theorem mem_take_append_cons_drop {α : Type*} {l : List α} {n : ℕ} {a b : α} :
    b ∈ l.take n ++ a :: l.drop n ↔ b = a ∨ b ∈ l := by
  have hsplit : b ∈ l ↔ b ∈ l.take n ++ l.drop n := by rw [List.take_append_drop]
  rw [hsplit, List.mem_append, List.mem_append, List.mem_cons, or_left_comm]

namespace InOrder

variable {α β ι : Type*} [LinearOrder ι] {lo hi : α → ι} {l l' : List α}

theorem nil : InOrder lo hi [] := ⟨fun _ h => absurd h List.not_mem_nil, List.Pairwise.nil⟩

theorem sublist (h : InOrder lo hi l) (hsub : l'.Sublist l) : InOrder lo hi l' :=
  ⟨fun a ha => h.valid a (hsub.subset ha), h.sorted.sublist hsub⟩

/-- What keeps the ranges keeps them in order. -/
theorem map {lo' hi' : β → ι} (h : InOrder lo hi l) (f : α → β)
    (hlo : ∀ a ∈ l, lo' (f a) = lo a) (hhi : ∀ a ∈ l, hi' (f a) = hi a) :
    InOrder lo' hi' (l.map f) := by
  refine ⟨fun b hb => ?_, List.pairwise_map.mpr ?_⟩
  · rcases List.mem_map.mp hb with ⟨a, ha, rfl⟩
    rw [hlo a ha, hhi a ha]
    exact h.valid a ha
  · refine h.sorted.imp_of_mem fun {a b} ha hb hab => ?_
    rw [hhi a ha, hlo b hb]
    exact hab

/-- A range that lies between two neighbours is put there. -/
theorem insert {before after : List α} {a : α} (h : InOrder lo hi (before ++ after))
    (ha : lo a ≤ hi a) (hbefore : ∀ b ∈ before, hi b < lo a) (hafter : ∀ b ∈ after, hi a < lo b) :
    InOrder lo hi (before ++ a :: after) := by
  rcases List.pairwise_append.mp h.sorted with ⟨hsorted, hsorted', hcross⟩
  refine ⟨fun b hb => ?_, List.pairwise_append.mpr ⟨hsorted, ?_, fun b hb c hc => ?_⟩⟩
  · rcases List.mem_append.mp hb with hfirst | hrest
    · exact h.valid b (List.mem_append_left _ hfirst)
    · rcases List.mem_cons.mp hrest with rfl | hlast
      · exact ha
      · exact h.valid b (List.mem_append_right _ hlast)
  · exact List.pairwise_cons.mpr ⟨hafter, hsorted'⟩
  · rcases List.mem_cons.mp hc with rfl | hlast
    · exact hbefore b hb
    · exact hcross b hb c hlast

/-- The member that covers a point is found. -/
theorem find {x : ι} {a : α} (h : InOrder lo hi l) (ha : a ∈ l) (hlo : lo a ≤ x)
    (hhi : x ≤ hi a) : l.find? (fun b => lo b ≤ x ∧ x ≤ hi b) = some a := by
  induction l with
  | nil => exact absurd ha List.not_mem_nil
  | cons b l ih =>
      rcases List.pairwise_cons.mp h.sorted with ⟨hfirst, _⟩
      rcases List.mem_cons.mp ha with rfl | hrest
      · exact List.find?_cons_of_pos (decide_eq_true ⟨hlo, hhi⟩)
      · -- The first range ends before the one that covers the point.
        have hout : ¬(lo b ≤ x ∧ x ≤ hi b) := fun hb =>
          absurd (hb.2.trans_lt (hfirst a hrest)) (not_lt.mpr hlo)
        rw [List.find?_cons_of_neg (by rw [decide_eq_true_eq]; exact hout)]
        exact ih (h.sublist (List.sublist_cons_self b l)) hrest

/-- A point is covered once. -/
theorem eq_of_covers {x : ι} {a b : α} (h : InOrder lo hi l) (ha : a ∈ l) (hb : b ∈ l)
    (hxa : lo a ≤ x ∧ x ≤ hi a) (hxb : lo b ≤ x ∧ x ≤ hi b) : a = b := by
  have hfind := h.find ha hxa.1 hxa.2
  rw [h.find hb hxb.1 hxb.2] at hfind
  exact (Option.some.inj hfind).symm

/-- Keys that are in order within each range are in order altogether. -/
theorem keys {keys : α → List ι} (h : InOrder lo hi l)
    (hsorted : ∀ a ∈ l, (keys a).Pairwise (· < ·))
    (hwithin : ∀ a ∈ l, ∀ k ∈ keys a, lo a ≤ k ∧ k ≤ hi a) :
    (l.flatMap keys).Pairwise (· < ·) := by
  induction l with
  | nil => exact List.Pairwise.nil
  | cons a l ih =>
      rw [List.flatMap_cons]
      refine List.pairwise_append.mpr ⟨hsorted a List.mem_cons_self, ?_, fun k hk k' hk' => ?_⟩
      · exact ih (h.sublist (List.sublist_cons_self a l))
          (fun b hb => hsorted b (List.mem_cons_of_mem a hb))
          fun b hb => hwithin b (List.mem_cons_of_mem a hb)
      · rcases List.mem_flatMap.mp hk' with ⟨b, hb, hkb⟩
        have hab := (List.pairwise_cons.mp h.sorted).1 b hb
        exact ((hwithin a List.mem_cons_self k hk).2.trans_lt hab).trans_le
          (hwithin b (List.mem_cons_of_mem a hb) k' hkb).1

end InOrder
