import Mathlib.Data.Seq.Defs

/-!
# Awaiting an Event

The first event of some kind in a sequence that may be finite or infinite.

What an event answers is a partial function: an event of the kind that is
awaited has an answer, any other has none. `First` is the specification, the
event at some position is the first from another position on that has an
answer, and `first_unique` says that there is one such position and one answer.

`poll` is the program that looks at one event after another, as often as it may,
and gives up when its tries are used up or nothing more comes. What it finds
is the first event (`first_of_poll`).

## Main definitions

* `First`: The first event with an answer.
* `poll`: Looking for it a number of times.

## Theorems

* `first_unique`: There is only one.
* `first_of_poll`: It is what polling finds.
-/

namespace Await

variable {α β : Type*}

/-- From the position `pos` on, the first event with an answer is the one at
    `n`, and the answer is `b`. -/
structure First (events : Stream'.Seq α) (answer : α → Option β) (pos n : ℕ) (b : β) : Prop where
  le : pos ≤ n
  answers : (events.get? n).bind answer = some b
  before : ∀ m, pos ≤ m → m < n → (events.get? m).bind answer = none

/-- Look at up to that many events: the answer, and the position behind it. -/
def poll (events : Stream'.Seq α) (answer : α → Option β) : ℕ → ℕ → Option (β × ℕ)
  | 0, _ => none
  | tries + 1, pos =>
    match events.get? pos with
    | none => none
    | some event =>
      match answer event with
      | some b => some (b, pos + 1)
      | none => poll events answer tries (pos + 1)

variable {events : Stream'.Seq α} {answer : α → Option β} {pos n n' : ℕ} {b b' : β}

/-- The first event is determined. -/
theorem first_unique (h : First events answer pos n b) (h' : First events answer pos n' b') :
    n = n' ∧ b = b' := by
  have hn : n = n' := by
    -- Of two different events the earlier one would have no answer.
    rcases Nat.lt_trichotomy n n' with hlt | heq | hlt
    · have hnone := h'.before n h.le hlt
      rw [h.answers] at hnone
      exact absurd hnone (Option.some_ne_none b)
    · exact heq
    · have hnone := h.before n' h'.le hlt
      rw [h'.answers] at hnone
      exact absurd hnone (Option.some_ne_none b')
  refine ⟨hn, ?_⟩
  have hanswer := h'.answers
  rw [← hn, h.answers, Option.some.injEq] at hanswer
  exact hanswer

/-- Polling finds the first event. -/
theorem first_of_poll {tries q : ℕ} (h : poll events answer tries pos = some (b, q)) :
    ∃ n, First events answer pos n b ∧ q = n + 1 := by
  -- Induction on the tries, from any position.
  induction tries generalizing pos with
  | zero => exact absurd h.symm (Option.some_ne_none _)
  | succ tries ih =>
      unfold poll at h
      cases hget : events.get? pos with
      | none =>
          rw [hget] at h
          exact absurd h.symm (Option.some_ne_none _)
      | some event =>
          rw [hget] at h
          cases hanswer : answer event with
          | some c =>
              simp only [hanswer, Option.some.injEq, Prod.mk.injEq] at h
              refine ⟨pos, ⟨le_refl pos, ?_, fun m hm hlt => absurd hlt (by omega)⟩, h.2.symm⟩
              rw [hget, Option.bind_some, hanswer, h.1]
          | none =>
              simp only [hanswer] at h
              rcases ih h with ⟨n, hfirst, hq⟩
              have hle := hfirst.le
              refine ⟨n, ⟨by omega, hfirst.answers, ?_⟩, hq⟩
              intro m hm hlt
              -- The event just looked at, or one that was looked at later.
              rcases Nat.eq_or_lt_of_le hm with rfl | hm
              · rw [hget, Option.bind_some, hanswer]
              · exact hfirst.before m hm hlt

end Await
