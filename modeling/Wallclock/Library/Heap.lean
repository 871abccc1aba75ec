import Mathlib.Data.Finmap
import Wallclock.Library.Descriptor

/-!
# Heaps

Blocks of memory, and what a program does to them.

A block is an address with what is stored there. Allocation takes an address
that is not in use; which one is left to the `Allocator` of
`Library.Descriptor`. A pointer is null, or a block's address, or points to
static storage, which no allocation returns. Releasing a live block gives its
address back, and releasing null does nothing. Releasing anything else, or
writing to a block that is not live, is recorded as a fault, so a program
without faults releases every block at most once. If it also leaves the blocks
it found, it has released each of its own exactly once.

`free_alloc` and `put_alloc` are the rules for code that cleans up after
itself: a block that is allocated, written to and released leaves no trace.
The others say what each operation keeps, one lemma for what can be read
afterwards and one for the faults, which only grow.

## Main definitions

* `Pointer`: Null, static storage or a block.
* `Heap`: The live blocks, and the faults.
* `Heap.get`: What a pointer points to.
* `Heap.next`: The address that is allocated next.
* `Heap.alloc`, `Heap.put`, `Heap.free`: The operations.
* `Heap.misuse`: A fault.

## Theorems

* `mem_of_get`, `ne_of_get`: A live block, and two with other contents.
* `fresh_next`, `ne_next_of_get`: An allocated address was not in use.
* `get_alloc`, `get_alloc_of_get`: What can be read after an allocation.
* `get_put`, `get_put_of_ne`: What can be read after a write.
* `get_free_self`, `get_free_of_ne`: What can be read after a release.
* `put_alloc`: A new block with other contents.
* `free_alloc`: Allocating and releasing changes nothing.
* `faults_put`, `faults_free`: Faults stay recorded.
-/

open Descriptor

inductive Pointer
  | null
  | static
  | block (a : ℕ)
deriving DecidableEq

/-- The live blocks of memory, and the uses of pointers that were mistakes. -/
structure Heap (α : Type*) where
  blocks : Finmap fun _ : ℕ => α
  faults : List Pointer

namespace Heap

variable {α : Type*}

@[ext] theorem ext {h h' : Heap α} (hblocks : ∀ a, h.blocks.lookup a = h'.blocks.lookup a)
    (hfaults : h.faults = h'.faults) : h = h' := by
  cases h
  cases h'
  rw [mk.injEq]
  exact ⟨Finmap.ext_lookup hblocks, hfaults⟩

def get (h : Heap α) : Pointer → Option α
  | .block a => h.blocks.lookup a
  | _ => none

/-- The address that is allocated next. -/
def next (K : Allocator) (h : Heap α) : ℕ := K.pick h.blocks.keys

/-- Allocate a block, at that address. -/
def alloc (K : Allocator) (x : α) (h : Heap α) : Heap α :=
  { h with blocks := h.blocks.insert (h.next K) x }

/-- Record a mistake. -/
def misuse (h : Heap α) (p : Pointer) : Heap α := { h with faults := h.faults ++ [p] }

/-- Write to a block. -/
def put (h : Heap α) (a : ℕ) (x : α) : Heap α :=
  if a ∈ h.blocks then { h with blocks := h.blocks.insert a x } else h.misuse (.block a)

/-- Release a block. -/
def free (h : Heap α) : Pointer → Heap α
  | .null => h
  | .static => h.misuse .static
  | .block a =>
    if a ∈ h.blocks then { h with blocks := h.blocks.erase a } else h.misuse (.block a)

variable {K : Allocator} {h : Heap α} {a b : ℕ} {p q : Pointer} {x y : α}

theorem mem_of_get (hp : h.get (.block a) = some y) : a ∈ h.blocks :=
  Finmap.mem_of_lookup_eq_some hp

/-- Pointers to different contents are different. -/
theorem ne_of_get (hp : h.get p = some x) (hq : h.get q = some y) (hxy : x ≠ y) : p ≠ q := by
  intro heq
  rw [heq, hq, Option.some.injEq] at hp
  exact hxy hp.symm

theorem fresh_next (K : Allocator) (h : Heap α) : h.next K ∉ h.blocks := by
  intro hmem
  exact K.fresh h.blocks.keys (Finmap.mem_keys.mpr hmem)

@[simp] theorem get_alloc : (h.alloc K x).get (.block (h.next K)) = some x :=
  Finmap.lookup_insert h.blocks

/-- A pointer to a live block points to a block other than a new one. -/
theorem ne_next_of_get (hp : h.get p = some y) : p ≠ .block (h.next K) := by
  rintro rfl
  exact fresh_next K h (Finmap.mem_of_lookup_eq_some hp)

theorem get_alloc_of_get (hp : h.get p = some y) : (h.alloc K x).get p = some y := by
  cases p with
  | null => exact hp
  | static => exact hp
  | block a =>
      have hne : a ≠ h.next K := fun heq => ne_next_of_get hp (congrArg _ heq)
      exact (Finmap.lookup_insert_of_ne h.blocks hne).trans hp

theorem get_put (hp : h.get (.block a) = some y) : (h.put a x).get (.block a) = some x := by
  rw [put, if_pos (mem_of_get hp)]
  exact Finmap.lookup_insert h.blocks

theorem get_put_of_ne (hne : p ≠ .block a) : (h.put a x).get p = h.get p := by
  unfold put
  split
  · cases p with
    | null => rfl
    | static => rfl
    | block b => exact Finmap.lookup_insert_of_ne h.blocks fun heq => hne (congrArg _ heq)
  · rfl

/-- Releasing a block leaves every other one. -/
theorem get_free_of_ne (hne : p ≠ q) : (h.free q).get p = h.get p := by
  cases q with
  | null => rfl
  | static => rfl
  | block a =>
      by_cases hmem : a ∈ h.blocks
      · rw [free, if_pos hmem]
        cases p with
        | null => rfl
        | static => rfl
        | block b => exact Finmap.lookup_erase_ne fun heq => hne (congrArg _ heq)
      · rw [free, if_neg hmem]
        rfl

/-- A released block is gone. -/
theorem get_free_self (h : Heap α) (a : ℕ) : (h.free (.block a)).get (.block a) = none := by
  by_cases hmem : a ∈ h.blocks
  · rw [free, if_pos hmem]
    exact Finmap.lookup_erase a h.blocks
  · rw [free, if_neg hmem]
    exact Finmap.lookup_eq_none.mpr hmem

/-- Writing to a new block is allocating it with other contents. -/
theorem put_alloc : (h.alloc K x).put (h.next K) y = h.alloc K y := by
  have hmem : h.next K ∈ (h.alloc K x).blocks := mem_of_get get_alloc
  rw [put, if_pos hmem]
  unfold alloc
  rw [Finmap.insert_insert]

/-- Allocating a block and releasing it changes nothing. -/
theorem free_alloc : (h.alloc K x).free (.block (h.next K)) = h := by
  have hmem : h.next K ∈ (h.alloc K x).blocks := mem_of_get get_alloc
  rw [free, if_pos hmem]
  refine ext ?_ rfl
  -- Every address is looked up alike in both heaps.
  intro b
  by_cases hb : b = h.next K
  · -- The address was not in use before.
    rw [hb, Finmap.lookup_erase]
    exact (Finmap.lookup_eq_none.mpr (fresh_next K h)).symm
  · rw [Finmap.lookup_erase_ne hb]
    exact Finmap.lookup_insert_of_ne h.blocks hb

theorem faults_put : h.faults <+: (h.put a x).faults := by
  unfold put
  split
  · exact List.prefix_refl _
  · exact List.prefix_append _ _

/-- Faults stay recorded. -/
theorem faults_free : h.faults <+: (h.free p).faults := by
  cases p with
  | null => exact List.prefix_refl _
  | static => exact List.prefix_append _ _
  | block a =>
      by_cases hmem : a ∈ h.blocks
      · rw [free, if_pos hmem]
      · rw [free, if_neg hmem]
        exact List.prefix_append _ _

end Heap
