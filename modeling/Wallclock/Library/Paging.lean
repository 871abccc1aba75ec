import Mathlib.Data.List.TakeWhile
import Mathlib.Order.Nat
import Wallclock.Library.Ranges

/-!
# Paging

A list of records that is read in pages, by one side that knows the list and by
another one that does not.

The first side answers a request for the records from a point on. It writes
units of one length into a buffer until the next record does not belong with
the first one, or has no room (`fill`). So its answer is some of the first
records that were asked for. The other side takes the answer apart again
(`units`).

The second side asks for the records behind the last one it got, until there are
none. If the ranges of the records are in order, and every answer begins with
the first record that is left, then no record is left out and none is read
twice, however long the pages are (`readPages_eq`).

## Main definitions

* `units`: A list in units of one length.
* `fill`: Units in a buffer.
* `readPages`: The requests of a client.
* `Paged`: An answer has some of the first records.

## Theorems

* `units_flatMap`: Units are what they were written as.
* `fill_eq`: A buffer has the units that belong and have room.
* `length_fill_le`: It does not exceed the room.
* `fill_full`: Nothing is added to a full one.
* `flatMap_filter_of_nil`: Items without records may be left out.
* `exists_fill`: It has some of the first records.
* `paged_map`: Pages of records that are made from items.
* `filter_behind`: What is left behind a page.
* `readPages_eq`, `readPages_all`: All records are read, in order.
-/

variable {α β : Type*}

/-- A list in units of `n`. -/
def units (n : ℕ) (l : List β) : List (List β) :=
  (List.range (l.length / n)).map fun i => (l.drop (i * n)).take n

theorem units_flatMap {n : ℕ} {enc : α → List β} {l : List α} (hn : 0 < n)
    (henc : ∀ a ∈ l, (enc a).length = n) : units n (l.flatMap enc) = l.map enc := by
  induction l with
  | nil => rw [List.flatMap_nil, units, List.length_nil, Nat.zero_div, List.range_zero]; rfl
  | cons a l ih =>
      have ha : (enc a).length = n := henc a List.mem_cons_self
      have hdiv : (n + (l.flatMap enc).length) / n = (l.flatMap enc).length / n + 1 := by
        rw [Nat.add_comm, Nat.add_div_right _ hn]
      rw [List.map_cons, ← ih fun b hb => henc b (List.mem_cons_of_mem a hb), List.flatMap_cons,
        units, units, List.length_append, ha, hdiv, List.range_succ_eq_map, List.map_cons,
        List.map_map]
      congr 1
      · rw [Nat.zero_mul, List.drop_zero, ← ha, List.take_left]
      · refine List.map_congr_left fun i _ => ?_
        show ((enc a ++ l.flatMap enc).drop ((i + 1) * n)).take n = _
        rw [Nat.succ_mul, Nat.add_comm, ← List.drop_drop, ← ha, List.drop_left]

/-- Write units behind each other, as long as they belong and there is room. -/
def fill (enc : α → List β) (belongs : α → Bool) (room : ℕ) (buffer : List β) : List α → List β
  | [] => buffer
  | a :: l =>
    if belongs a ∧ buffer.length + (enc a).length ≤ room then
      fill enc belongs room (buffer ++ enc a) l
    else buffer

theorem fill_eq {enc : α → List β} {belongs : α → Bool} {n room : ℕ} {l : List α} (hn : 0 < n)
    (henc : ∀ a ∈ l, belongs a → (enc a).length = n) (buffer : List β) :
    fill enc belongs room buffer l =
      buffer ++ ((l.takeWhile belongs).take ((room - buffer.length) / n)).flatMap enc := by
  -- With each record the buffer grows by a unit, and the room shrinks by one.
  induction l generalizing buffer with
  | nil => rw [fill, List.takeWhile_nil, List.take_nil, List.flatMap_nil, List.append_nil]
  | cons a l ih =>
      unfold fill
      by_cases hbelongs : belongs a
      · rw [List.takeWhile_cons_of_pos hbelongs]
        have ha : (enc a).length = n := henc a List.mem_cons_self hbelongs
        by_cases hroom : buffer.length + n ≤ room
        · have hdiv : (room - buffer.length) / n = (room - (buffer.length + n)) / n + 1 := by
            rw [← Nat.add_div_right _ hn]
            congr 1
            omega
          rw [if_pos ⟨hbelongs, by omega⟩, ih fun b hb => henc b (List.mem_cons_of_mem a hb),
            List.length_append, ha, hdiv, List.take_succ_cons, List.flatMap_cons,
            List.append_assoc]
        · have hdiv : (room - buffer.length) / n = 0 := Nat.div_eq_of_lt (by omega)
          rw [if_neg (fun h => hroom (by omega)), hdiv, List.take_zero, List.flatMap_nil,
            List.append_nil]
      · rw [if_neg (fun h => hbelongs h.1), List.takeWhile_cons_of_neg hbelongs, List.take_nil,
          List.flatMap_nil, List.append_nil]

theorem length_fill_le {enc : α → List β} {belongs : α → Bool} {room : ℕ} {buffer : List β}
    (h : buffer.length ≤ room) (l : List α) : (fill enc belongs room buffer l).length ≤ room := by
  induction l generalizing buffer with
  | nil => exact h
  | cons a l ih =>
      unfold fill
      split
      · case isTrue hroom => exact ih (by rw [List.length_append]; exact hroom.2)
      · exact h

/-- A full buffer stays as it is. -/
theorem fill_full {enc : α → List β} {belongs : α → Bool} {room : ℕ} {buffer : List β}
    {l : List α} (h : buffer.length = room) (henc : ∀ a ∈ l, 0 < (enc a).length) :
    fill enc belongs room buffer l = buffer := by
  cases l with
  | nil => rfl
  | cons a l =>
      have ha := henc a List.mem_cons_self
      exact if_neg (fun hroom => by omega)

/-- A buffer whose first record belongs and has room holds some of the first records. -/
theorem exists_fill {enc : α → List β} {belongs : α → Bool} {n room : ℕ} {a : α} {l : List α}
    {header : β} (hn : 0 < n) (henc : ∀ b ∈ a :: l, belongs b → (enc b).length = n)
    (hfirst : belongs a) (hroom : 1 + n ≤ room) :
    ∃ p, p ≠ [] ∧ p <+: a :: l ∧
      units n ((fill enc belongs room [header] (a :: l)).drop 1) = p.map enc := by
  -- There is room for one record at least, and the first one belongs.
  have hslots : 1 ≤ (room - 1) / n := (Nat.one_le_div_iff hn).mpr (by omega)
  obtain ⟨slots, hslots⟩ := Nat.exists_eq_add_of_le' hslots
  refine ⟨((a :: l).takeWhile belongs).take ((room - 1) / n), ?_, ?_, ?_⟩
  · rw [List.takeWhile_cons_of_pos hfirst, hslots, List.take_succ_cons]
    exact List.cons_ne_nil _ _
  · exact (List.take_prefix _ _).trans (List.takeWhile_prefix _)
  · rw [fill_eq hn henc, List.length_singleton, List.singleton_append, List.drop_one,
      List.tail_cons]
    refine units_flatMap hn fun b hb => ?_
    have hb' := List.mem_of_mem_take hb
    exact henc b (List.takeWhile_sublist _ |>.subset hb') (List.mem_takeWhile_imp hb')

theorem flatMap_filter_of_nil {p : α → Bool} {f : α → List β} {l : List α}
    (h : ∀ a ∈ l, ¬p a → f a = []) : (l.filter p).flatMap f = l.flatMap f := by
  induction l with
  | nil => rfl
  | cons a l ih =>
      have htail := ih fun b hb => h b (List.mem_cons_of_mem a hb)
      by_cases ha : p a
      · rw [List.filter_cons_of_pos ha, List.flatMap_cons, List.flatMap_cons, htail]
      · rw [List.filter_cons_of_neg ha, List.flatMap_cons, h a List.mem_cons_self ha,
          List.nil_append, htail]

/-- What a client reads that asks for the records from `start` on, and then for
    those behind the last one, with so many requests at most. No record ends
    behind `last`. -/
def readPages (page : ℕ → Option (List α)) (hi : α → ℕ) (last : ℕ) : ℕ → ℕ → List α
  | 0, _ => []
  | requests + 1, start => match page start with
    | none => []
    | some records => records ++ match records.getLast? with
      | none => []
      | some record =>
        if hi record ≥ last then [] else readPages page hi last requests (hi record + 1)

/-- The answer to a request has some of the first records that are left. Only if
    there are none it is empty. -/
def Paged (page : ℕ → Option (List α)) (lo : α → ℕ) (last : ℕ) (records : List α) : Prop :=
  ∀ start, 1 ≤ start → start ≤ last → match page start with
    | none => records.filter (fun r => start ≤ lo r) = []
    | some answer => answer ≠ [] ∧ answer <+: records.filter fun r => start ≤ lo r

/-- The same, for records that are made from a list of items. -/
theorem paged_map {γ : Type*} {page : ℕ → Option (List α)} {lo : α → ℕ} {last : ℕ}
    {items : List γ} {f : γ → α}
    (h : ∀ start, 1 ≤ start → start ≤ last →
      (items.filter (fun x => start ≤ lo (f x)) = [] ∧ page start = none) ∨
        ∃ p, p ≠ [] ∧ p <+: items.filter (fun x => start ≤ lo (f x)) ∧
          page start = some (p.map f)) :
    Paged page lo last (items.map f) := by
  intro start hfirst hstart
  have hmap : (items.map f).filter (fun r => start ≤ lo r) =
      (items.filter fun x => start ≤ lo (f x)).map f := by
    rw [List.filter_map]
    rfl
  rcases h start hfirst hstart with ⟨hnone, hpage⟩ | ⟨p, hne, hfront, hpage⟩
  · rw [hpage]
    show List.filter _ _ = []
    rw [hmap, hnone]
    rfl
  · rw [hpage]
    refine ⟨fun hnil => hne (List.map_eq_nil_iff.mp hnil), ?_⟩
    rw [hmap]
    exact hfront.map f

/-- What is behind the last record of a page is the rest. -/
theorem filter_behind {lo hi : α → ℕ} {records before after : List α} {record : α} {start : ℕ}
    (h : InOrder lo hi records)
    (heq : records.filter (fun r => start ≤ lo r) = before ++ record :: after) :
    records.filter (fun r => hi record + 1 ≤ lo r) = after := by
  have horder : InOrder lo hi (before ++ record :: after) := heq ▸ h.sublist List.filter_sublist
  have hmem : record ∈ records.filter fun r => start ≤ lo r := by
    rw [heq]
    exact List.mem_append_right _ List.mem_cons_self
  have hstart : start ≤ lo record := by
    have hfound := (List.mem_filter.mp hmem).2
    rwa [decide_eq_true_eq] at hfound
  have hvalid : lo record ≤ hi record := h.valid record (List.mem_filter.mp hmem).1
  -- Behind the record is behind the start.
  have hsame : records.filter (fun r => hi record + 1 ≤ lo r) =
      (records.filter fun r => start ≤ lo r).filter fun r => hi record + 1 ≤ lo r := by
    rw [List.filter_filter]
    refine List.filter_congr fun r _ => ?_
    rw [Bool.eq_iff_iff, Bool.and_eq_true, decide_eq_true_eq, decide_eq_true_eq]
    omega
  rw [hsame, heq, List.filter_append, List.filter_cons_of_neg (by rw [decide_eq_true_eq]; omega)]
  rcases List.pairwise_append.mp horder.sorted with ⟨_, hrest, hbefore⟩
  -- What was read before it begins in front of it, and what is left behind it.
  have hnone : before.filter (fun r => hi record + 1 ≤ lo r) = [] := by
    refine List.filter_eq_nil_iff.mpr fun r hr => ?_
    have hr' := hbefore r hr record List.mem_cons_self
    have hr'' := horder.valid r (List.mem_append_left _ hr)
    rw [decide_eq_true_eq]
    omega
  have hall : after.filter (fun r => hi record + 1 ≤ lo r) = after := by
    refine List.filter_eq_self.mpr fun r hr => decide_eq_true ?_
    exact (List.pairwise_cons.mp hrest).1 r hr
  rw [hnone, hall, List.nil_append]

/-- All records are read, in order, with one more request than there are records. -/
theorem readPages_eq {page : ℕ → Option (List α)} {lo hi : α → ℕ} {last : ℕ} {records : List α}
    (h : InOrder lo hi records) (hlast : ∀ r ∈ records, hi r ≤ last)
    (hpage : Paged page lo last records) {requests start : ℕ} (hfirst : 1 ≤ start)
    (hstart : start ≤ last)
    (hrequests : (records.filter fun r => start ≤ lo r).length < requests) :
    readPages page hi last requests start = records.filter fun r => start ≤ lo r := by
  -- Induction on the requests: each one shortens what is left.
  induction requests generalizing start with
  | zero => exact absurd hrequests (Nat.not_lt_zero _)
  | succ requests ih =>
      have hanswer := hpage start hfirst hstart
      unfold readPages
      rcases hp : page start with _ | answer
      · rw [hp] at hanswer
        exact hanswer.symm
      · rw [hp] at hanswer
        rcases hanswer with ⟨hne, after, heq⟩
        rcases List.eq_nil_or_concat answer with rfl | ⟨before, record, rfl⟩
        · exact absurd rfl hne
        rw [List.concat_eq_append, List.append_assoc, List.singleton_append] at heq
        -- The next request asks for what this page has left.
        have hrest := filter_behind h heq.symm
        simp only [List.concat_eq_append, List.getLast?_append, List.getLast?_singleton,
          Option.some_or]
        rw [← heq]
        split
        · case isTrue hend =>
            -- Nothing begins behind the last point.
            rcases after with _ | ⟨r, after⟩
            · exact List.append_nil _
            · have hr : r ∈ records.filter fun r => hi record + 1 ≤ lo r := by
                rw [hrest]
                exact List.mem_cons_self
              rcases List.mem_filter.mp hr with ⟨hmem, hlo⟩
              rw [decide_eq_true_eq] at hlo
              have hvalid : lo r ≤ hi r := h.valid r hmem
              have hle := hlast r hmem
              omega
        · rw [ih (by omega) (by omega), hrest, List.append_assoc, List.singleton_append]
          rw [hrest]
          rw [← heq, List.length_append, List.length_cons] at hrequests
          omega

/-- From the first point on, all records are read. -/
theorem readPages_all {page : ℕ → Option (List α)} {lo hi : α → ℕ} {last : ℕ} {records : List α}
    (h : InOrder lo hi records) (hfirst : ∀ r ∈ records, 1 ≤ lo r)
    (hlast : ∀ r ∈ records, hi r ≤ last) (hpage : Paged page lo last records) (hone : 1 ≤ last)
    {requests : ℕ} (hrequests : records.length < requests) :
    readPages page hi last requests 1 = records := by
  have hall : records.filter (fun r => 1 ≤ lo r) = records :=
    List.filter_eq_self.mpr fun r hr => decide_eq_true (hfirst r hr)
  rw [readPages_eq h hlast hpage (le_refl 1) hone (by rw [hall]; exact hrequests), hall]
