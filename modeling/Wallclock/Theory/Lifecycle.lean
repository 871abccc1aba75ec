import Mathlib.Algebra.BigOperators.Group.Multiset.Basic
import Mathlib.Tactic.Abel
import Wallclock.Core.Bearer
import Wallclock.Library.Path

/-!
# The Life of an Operation

What can happen to the operations of a bearer, whatever the code does to bring
it about.

An operation is accepted into one of three queues. From there it is sent, and
then kept if it elicits an answer, or it is taken out. What has been taken out
and not been freed yet is in `limbo`: the code holds it in a local variable,
possibly while a callback runs. A `Move` is one of these things. `answered`
operations have had their callback called, and `cancelled` ones have lost their
functions, though both may still be pending.

The laws of a bearer are laws of its moves. `held` is everything it has to give
back: for each operation a charge on its `Packet`, the part that never changes,
and for each destroy function it was handed a charge on that. `Move.balance`
says that a move keeps these books, for charges in any commutative monoid.
`Move.answers` says that a callback is used up by its call.

## Main definitions

* `AttSendOp.answered`, `AttSendOp.cancelled`: What is left of an operation.
* `Life`: Where the operations are.
* `AttOpType.Elicits`: A type that elicits an answer.
* `BearerEvent.isResponse`, `BearerEvent.asCall`, `BearerEvent.Neutral`: Kinds
  of events.
* `Move`: One thing that happens to the operations.
* `Life.total`, `AttSendOp.worth`, `Life.held`, `income`, `expense`: The books.
* `Life.callbacks`, `BearerEvent.handed`, `BearerEvent.called`: The callbacks.

## Theorems

* `total_enqueue`, `handlers_enqueue`: An operation that is enqueued counts.
* `expense_destroyEvents`, `income_destroyEvents`, `neutral_books`,
  `response_books`: The books of some events.
* `Move.balance`: Moves keep the books.
* `handed_destroyEvents`, `neutral_called`, `response_called`: The callbacks of
  some events.
* `Move.answers`: A callback is used up by its call.
-/

namespace Wallclock

variable {κ δ A : Type*}

/-- The operation once its callback has been called. -/
def AttSendOp.answered (op : AttSendOp κ δ) : AttSendOp κ δ := { op with callback := none }

/-- The operation that `cancel_att_send_op` leaves. -/
def AttSendOp.cancelled (op : AttSendOp κ δ) : AttSendOp κ δ :=
  { op with callback := none, destroy := none }

/-- Where the operations of a bearer are, and the destroy functions of its
    handlers. -/
structure Life (κ δ : Type*) where
  reqQueue : List (AttSendOp κ δ)
  pendingReq : Option (AttSendOp κ δ)
  indQueue : List (AttSendOp κ δ)
  pendingInd : Option (AttSendOp κ δ)
  writeQueue : List (AttSendOp κ δ)
  limbo : Multiset (AttSendOp κ δ)
  handlers : Multiset δ

/-- The types that elicit an answer. -/
def AttOpType.Elicits (type : AttOpType) : Prop := type = .req ∨ type = .ind

/-- A received response. -/
def BearerEvent.isResponse : BearerEvent κ δ → Prop
  | .received (opcode :: _) => getOpType opcode = .rsp
  | _ => False

/-- The call of a response callback. -/
def BearerEvent.asCall : BearerEvent κ δ → Option κ
  | .upcall (.response callback _ _) => some callback
  | _ => none

/-- An event that is not about an operation or a destroy function. -/
def BearerEvent.Neutral : BearerEvent κ δ → Prop
  | .received _ => True
  | .upcall (.response _ _ _) => False
  | .upcall _ => True
  | .shutdown => True
  | .overflow => True
  | _ => False

/-- An operation enters the queue for its type. -/
def Life.enqueue (L : Life κ δ) (op : AttSendOp κ δ) : Life κ δ :=
  match op.type with
  | .req => { L with reqQueue := L.reqQueue ++ [op] }
  | .ind => { L with indQueue := L.indQueue ++ [op] }
  | _ => { L with writeQueue := L.writeQueue ++ [op] }

/-- One thing that happens to the operations of a bearer. The socket is only
    written to when nothing is in limbo. -/
inductive Move : Life κ δ → List (BearerEvent κ δ) → Life κ δ → Prop
  | accept (L : Life κ δ) (op : AttSendOp κ δ) : Move L [.accepted op] (L.enqueue op)
  | takeReq (L : Life κ δ) (l r : List (AttSendOp κ δ)) (op : AttSendOp κ δ)
      (h : L.reqQueue = l ++ op :: r) :
      Move L [] { L with reqQueue := l ++ r, limbo := op ::ₘ L.limbo }
  | takeInd (L : Life κ δ) (l r : List (AttSendOp κ δ)) (op : AttSendOp κ δ)
      (h : L.indQueue = l ++ op :: r) :
      Move L [] { L with indQueue := l ++ r, limbo := op ::ₘ L.limbo }
  | takeWrite (L : Life κ δ) (l r : List (AttSendOp κ δ)) (op : AttSendOp κ δ)
      (h : L.writeQueue = l ++ op :: r) :
      Move L [] { L with writeQueue := l ++ r, limbo := op ::ₘ L.limbo }
  | takePendingReq (L : Life κ δ) (op : AttSendOp κ δ) (h : L.pendingReq = some op) :
      Move L [] { L with pendingReq := none, limbo := op ::ₘ L.limbo }
  | takePendingInd (L : Life κ δ) (op : AttSendOp κ δ) (h : L.pendingInd = some op) :
      Move L [] { L with pendingInd := none, limbo := op ::ₘ L.limbo }
  | cancelReq (L : Life κ δ) (op : AttSendOp κ δ) (h : L.pendingReq = some op) :
      Move L (destroyEvents op.destroy) { L with pendingReq := some op.cancelled }
  | cancelInd (L : Life κ δ) (op : AttSendOp κ δ) (h : L.pendingInd = some op) :
      Move L (destroyEvents op.destroy) { L with pendingInd := some op.cancelled }
  | sendReq (L : Life κ δ) (op : AttSendOp κ δ) (r : List (AttSendOp κ δ)) (hlimbo : L.limbo = 0)
      (hpending : L.pendingReq = none) (h : L.reqQueue = op :: r) :
      Move L [.sent op.packet]
        { L with reqQueue := r, pendingReq := some { op with timeoutId := true } }
  | sendInd (L : Life κ δ) (op : AttSendOp κ δ) (r : List (AttSendOp κ δ)) (hlimbo : L.limbo = 0)
      (hpending : L.pendingInd = none) (h : L.indQueue = op :: r) :
      Move L [.sent op.packet]
        { L with indQueue := r, pendingInd := some { op with timeoutId := true } }
  | sendWrite (L : Life κ δ) (op : AttSendOp κ δ) (r : List (AttSendOp κ δ)) (hlimbo : L.limbo = 0)
      (h : L.writeQueue = op :: r) :
      Move L [.sent op.packet] { L with writeQueue := r, limbo := op ::ₘ L.limbo }
  | retry (L : Life κ δ) (op : AttSendOp κ δ) (e : BearerEvent κ δ) (hresponse : e.isResponse)
      (h : L.pendingReq = some op) :
      Move L [e] { L with
        pendingReq := none, reqQueue := { op with timeoutId := false } :: L.reqQueue }
  | answerReq (L : Life κ δ) (op : AttSendOp κ δ) (callback : κ) (opcode : UInt8)
      (pdu : List UInt8) (h : L.pendingReq = some op) (hcallback : op.callback = some callback) :
      Move L [.upcall (.response callback opcode pdu)] { L with pendingReq := some op.answered }
  | answerInd (L : Life κ δ) (op : AttSendOp κ δ) (callback : κ) (opcode : UInt8)
      (pdu : List UInt8) (h : L.pendingInd = some op) (hcallback : op.callback = some callback) :
      Move L [.upcall (.response callback opcode pdu)] { L with pendingInd := some op.answered }
  | answer (L : Life κ δ) (op : AttSendOp κ δ) (limbo : Multiset (AttSendOp κ δ)) (callback : κ)
      (opcode : UInt8) (pdu : List UInt8) (h : L.limbo = op ::ₘ limbo)
      (hcallback : op.callback = some callback) :
      Move L [.upcall (.response callback opcode pdu)] { L with limbo := op.answered ::ₘ limbo }
  | free (L : Life κ δ) (op : AttSendOp κ δ) (limbo : Multiset (AttSendOp κ δ))
      (h : L.limbo = op ::ₘ limbo) : Move L (Bearer.destroyAttSendOp op) { L with limbo }
  | hold (L : Life κ δ) (destroy : Option δ) (handlers : Multiset δ)
      (h : handlers = destroy.toList + L.handlers) :
      Move L [.registered destroy] { L with handlers }
  | release (L : Life κ δ) (destroy : Option δ) (handlers : Multiset δ)
      (h : L.handlers = destroy.toList + handlers) :
      Move L (destroyEvents destroy) { L with handlers }
  | neutral (L : Life κ δ) (e : BearerEvent κ δ) (h : e.Neutral) : Move L [e] L

section Books

variable [AddCommMonoid A]

/-- What the operations of a bearer are worth in all. -/
def Life.total (f : AttSendOp κ δ → A) (L : Life κ δ) : A :=
  (L.reqQueue.map f).sum + L.pendingReq.elim 0 f + (L.indQueue.map f).sum +
    L.pendingInd.elim 0 f + (L.writeQueue.map f).sum + (L.limbo.map f).sum

variable (charge : Packet → A) (fn : δ → A)

/-- What has to be given back for an operation. -/
def AttSendOp.worth (op : AttSendOp κ δ) : A := charge op.packet + op.destroy.elim 0 fn

/-- Everything that has to be given back. -/
def Life.held (L : Life κ δ) : A := L.total (·.worth charge fn) + (L.handlers.map fn).sum

def income : BearerEvent κ δ → A
  | .accepted op => op.worth charge fn
  | .registered destroy => destroy.elim 0 fn
  | _ => 0

def expense : BearerEvent κ δ → A
  | .freed packet => charge packet
  | .destroyed destroy => fn destroy
  | _ => 0

theorem total_enqueue (f : AttSendOp κ δ → A) (L : Life κ δ) (op : AttSendOp κ δ) :
    (L.enqueue op).total f = L.total f + f op := by
  rw [Life.enqueue]
  cases op.type with
  | req =>
      simp only [Life.total, List.map_append, List.sum_append, List.map_cons, List.map_nil,
        List.sum_cons, List.sum_nil]
      abel
  | ind =>
      simp only [Life.total, List.map_append, List.sum_append, List.map_cons, List.map_nil,
        List.sum_cons, List.sum_nil]
      abel
  | _ =>
      simp only [Life.total, List.map_append, List.sum_append, List.map_cons, List.map_nil,
        List.sum_cons, List.sum_nil]
      abel

theorem handlers_enqueue (L : Life κ δ) (op : AttSendOp κ δ) :
    (L.enqueue op).handlers = L.handlers := by
  rw [Life.enqueue]
  cases op.type <;> rfl

theorem expense_destroyEvents (destroy : Option δ) :
    ((destroyEvents destroy : List (BearerEvent κ δ)).map (expense charge fn)).sum =
      destroy.elim 0 fn := by
  cases destroy with
  | none => rfl
  | some d => simp only [destroyEvents, Option.toList_some, List.map_cons, List.map_nil,
      List.sum_cons, List.sum_nil, add_zero, expense, Option.elim_some]

theorem income_destroyEvents (destroy : Option δ) :
    ((destroyEvents destroy : List (BearerEvent κ δ)).map (income charge fn)).sum = 0 := by
  cases destroy with
  | none => rfl
  | some d => simp only [destroyEvents, Option.toList_some, List.map_cons, List.map_nil,
      List.sum_cons, List.sum_nil, add_zero, income]

theorem neutral_books {e : BearerEvent κ δ} (h : e.Neutral) :
    income charge fn e = 0 ∧ expense charge fn e = 0 := by
  cases e with
  | accepted op => exact h.elim
  | freed op => exact h.elim
  | registered destroy => exact h.elim
  | destroyed destroy => exact h.elim
  | _ => exact ⟨rfl, rfl⟩

theorem response_books {e : BearerEvent κ δ} (h : e.isResponse) :
    income charge fn e = 0 ∧ expense charge fn e = 0 := by
  cases e with
  | received pdu => exact ⟨rfl, rfl⟩
  | _ => exact h.elim

/-- Moves keep the books. -/
theorem Move.balance {L L' : Life κ δ} {es : List (BearerEvent κ δ)} (h : Move L es L') :
    L.held charge fn + (es.map (income charge fn)).sum =
      (es.map (expense charge fn)).sum + L'.held charge fn := by
  cases h with
  | accept op =>
      simp only [Life.held, total_enqueue, handlers_enqueue, List.map_cons, List.map_nil,
        List.sum_cons, List.sum_nil, income, expense]
      abel
  | takeReq l r op h =>
      simp only [Life.held, Life.total, h, List.map_append, List.map_cons, List.map_nil,
        List.sum_append, List.sum_cons, List.sum_nil, Multiset.map_cons, Multiset.sum_cons]
      abel
  | takeInd l r op h =>
      simp only [Life.held, Life.total, h, List.map_append, List.map_cons, List.map_nil,
        List.sum_append, List.sum_cons, List.sum_nil, Multiset.map_cons, Multiset.sum_cons]
      abel
  | takeWrite l r op h =>
      simp only [Life.held, Life.total, h, List.map_append, List.map_cons, List.map_nil,
        List.sum_append, List.sum_cons, List.sum_nil, Multiset.map_cons, Multiset.sum_cons]
      abel
  | takePendingReq op h =>
      simp only [Life.held, Life.total, h, List.map_nil, List.sum_nil, Multiset.map_cons,
        Multiset.sum_cons, Option.elim_some, Option.elim_none]
      abel
  | takePendingInd op h =>
      simp only [Life.held, Life.total, h, List.map_nil, List.sum_nil, Multiset.map_cons,
        Multiset.sum_cons, Option.elim_some, Option.elim_none]
      abel
  | cancelReq op h =>
      simp only [Life.held, Life.total, h, expense_destroyEvents, income_destroyEvents,
        Option.elim_some, AttSendOp.worth, AttSendOp.packet, AttSendOp.cancelled, Option.elim_none]
      abel
  | cancelInd op h =>
      simp only [Life.held, Life.total, h, expense_destroyEvents, income_destroyEvents,
        Option.elim_some, AttSendOp.worth, AttSendOp.packet, AttSendOp.cancelled, Option.elim_none]
      abel
  | sendReq op r hlimbo hpending h =>
      simp only [Life.held, Life.total, h, hpending, List.map_cons, List.map_nil, List.sum_cons,
        List.sum_nil, Option.elim_some, Option.elim_none, income, expense, AttSendOp.worth,
        AttSendOp.packet]
      abel
  | sendInd op r hlimbo hpending h =>
      simp only [Life.held, Life.total, h, hpending, List.map_cons, List.map_nil, List.sum_cons,
        List.sum_nil, Option.elim_some, Option.elim_none, income, expense, AttSendOp.worth,
        AttSendOp.packet]
      abel
  | sendWrite op r hlimbo h =>
      simp only [Life.held, Life.total, h, List.map_cons, List.map_nil, List.sum_cons,
        List.sum_nil, Multiset.map_cons, Multiset.sum_cons, income, expense]
      abel
  | retry op e hresponse h =>
      simp only [Life.held, Life.total, h, List.map_cons, List.map_nil, List.sum_cons,
        List.sum_nil, Option.elim_some, Option.elim_none, AttSendOp.worth, AttSendOp.packet,
        (response_books charge fn hresponse).1, (response_books charge fn hresponse).2]
      abel
  | answerReq op callback opcode pdu h hcallback =>
      simp only [Life.held, Life.total, h, List.map_cons, List.map_nil, List.sum_cons,
        List.sum_nil, Option.elim_some, income, expense, AttSendOp.worth, AttSendOp.packet,
        AttSendOp.answered]
      abel
  | answerInd op callback opcode pdu h hcallback =>
      simp only [Life.held, Life.total, h, List.map_cons, List.map_nil, List.sum_cons,
        List.sum_nil, Option.elim_some, income, expense, AttSendOp.worth, AttSendOp.packet,
        AttSendOp.answered]
      abel
  | answer op limbo callback opcode pdu h hcallback =>
      simp only [Life.held, Life.total, h, List.map_cons, List.map_nil, List.sum_cons,
        List.sum_nil, Multiset.map_cons, Multiset.sum_cons, income, expense, AttSendOp.worth,
        AttSendOp.packet, AttSendOp.answered]
      abel
  | free op limbo h =>
      simp only [Life.held, Life.total, h, Bearer.destroyAttSendOp, List.map_append,
        List.sum_append, expense_destroyEvents, income_destroyEvents, List.map_cons,
        List.map_nil, List.sum_cons, List.sum_nil, Multiset.map_cons, Multiset.sum_cons, income,
        expense, AttSendOp.worth]
      abel
  | hold destroy handlers h =>
      cases destroy <;> simp only [Life.held, Life.total, h, List.map_cons, List.map_nil,
        List.sum_cons, List.sum_nil, income, expense, Option.elim_none, Option.elim_some,
        Option.toList_none, Option.toList_some, Multiset.map_add, Multiset.sum_add,
        Multiset.coe_nil, Multiset.coe_singleton, Multiset.map_zero, Multiset.sum_zero,
        Multiset.map_singleton, Multiset.sum_singleton] <;> abel
  | release destroy handlers h =>
      cases destroy <;> simp only [Life.held, Life.total, h, expense_destroyEvents,
        income_destroyEvents, Option.elim_none, Option.elim_some, Option.toList_none,
        Option.toList_some, Multiset.map_add, Multiset.sum_add, Multiset.coe_nil,
        Multiset.coe_singleton, Multiset.map_zero, Multiset.sum_zero, Multiset.map_singleton,
        Multiset.sum_singleton] <;> abel
  | neutral e h =>
      simp only [List.map_cons, List.map_nil, List.sum_cons, List.sum_nil,
        (neutral_books charge fn h).1, (neutral_books charge fn h).2]
      abel

end Books

section Answers

/-- The callbacks that may still be called. -/
def Life.callbacks (L : Life κ δ) : Multiset κ := L.total fun op => op.callback.toList

/-- The callback that is handed over with an operation. -/
def BearerEvent.handed : BearerEvent κ δ → Multiset κ
  | .accepted op => op.callback.toList
  | _ => 0

/-- The callback that is called. -/
def BearerEvent.called (e : BearerEvent κ δ) : Multiset κ := e.asCall.toList

theorem handed_destroyEvents (destroy : Option δ) :
    ((destroyEvents destroy : List (BearerEvent κ δ)).map BearerEvent.handed).sum = 0 ∧
      ((destroyEvents destroy : List (BearerEvent κ δ)).map BearerEvent.called).sum = 0 := by
  cases destroy <;> exact ⟨rfl, rfl⟩

theorem neutral_called {e : BearerEvent κ δ} (h : e.Neutral) : e.handed = 0 ∧ e.called = 0 := by
  cases e with
  | accepted op => exact h.elim
  | upcall call =>
      cases call with
      | response callback opcode pdu => exact h.elim
      | _ => exact ⟨rfl, rfl⟩
  | _ => exact ⟨rfl, rfl⟩

theorem response_called {e : BearerEvent κ δ} (h : e.isResponse) : e.handed = 0 ∧ e.called = 0 := by
  cases e with
  | received pdu => exact ⟨rfl, rfl⟩
  | _ => exact h.elim

/-- A callback is used up by its call. -/
theorem Move.answers {L L' : Life κ δ} {es : List (BearerEvent κ δ)} (h : Move L es L') :
    (es.map BearerEvent.called).sum + L'.callbacks ≤
      L.callbacks + (es.map BearerEvent.handed).sum := by
  cases h with
  | accept op =>
      simp only [Life.callbacks, total_enqueue, List.map_cons, List.map_nil, List.sum_cons,
        List.sum_nil, BearerEvent.handed, BearerEvent.called, BearerEvent.asCall,
        Option.toList_none, Multiset.coe_nil, add_zero, zero_add, le_refl]
  | takeReq l r op h =>
      apply le_of_eq
      simp only [Life.callbacks, Life.total, h, List.map_append, List.map_cons, List.map_nil,
        List.sum_append, List.sum_cons, List.sum_nil, Multiset.map_cons, Multiset.sum_cons]
      abel
  | takeInd l r op h =>
      apply le_of_eq
      simp only [Life.callbacks, Life.total, h, List.map_append, List.map_cons, List.map_nil,
        List.sum_append, List.sum_cons, List.sum_nil, Multiset.map_cons, Multiset.sum_cons]
      abel
  | takeWrite l r op h =>
      apply le_of_eq
      simp only [Life.callbacks, Life.total, h, List.map_append, List.map_cons, List.map_nil,
        List.sum_append, List.sum_cons, List.sum_nil, Multiset.map_cons, Multiset.sum_cons]
      abel
  | takePendingReq op h =>
      apply le_of_eq
      simp only [Life.callbacks, Life.total, h, List.map_nil, List.sum_nil, Multiset.map_cons,
        Multiset.sum_cons, Option.elim_some, Option.elim_none]
      abel
  | takePendingInd op h =>
      apply le_of_eq
      simp only [Life.callbacks, Life.total, h, List.map_nil, List.sum_nil, Multiset.map_cons,
        Multiset.sum_cons, Option.elim_some, Option.elim_none]
      abel
  | cancelReq op h =>
      -- The callback is dropped.
      refine Multiset.le_iff_exists_add.mpr ⟨op.callback.toList, ?_⟩
      simp only [Life.callbacks, Life.total, h, (handed_destroyEvents op.destroy).1,
        (handed_destroyEvents op.destroy).2, Option.elim_some, AttSendOp.cancelled,
        Option.toList_none, Multiset.coe_nil]
      abel
  | cancelInd op h =>
      refine Multiset.le_iff_exists_add.mpr ⟨op.callback.toList, ?_⟩
      simp only [Life.callbacks, Life.total, h, (handed_destroyEvents op.destroy).1,
        (handed_destroyEvents op.destroy).2, Option.elim_some, AttSendOp.cancelled,
        Option.toList_none, Multiset.coe_nil]
      abel
  | sendReq op r hlimbo hpending h =>
      apply le_of_eq
      simp only [Life.callbacks, Life.total, h, hpending, List.map_cons, List.map_nil,
        List.sum_cons, List.sum_nil, Option.elim_some, Option.elim_none, BearerEvent.handed,
        BearerEvent.called, BearerEvent.asCall, Option.toList_none, Multiset.coe_nil]
      abel
  | sendInd op r hlimbo hpending h =>
      apply le_of_eq
      simp only [Life.callbacks, Life.total, h, hpending, List.map_cons, List.map_nil,
        List.sum_cons, List.sum_nil, Option.elim_some, Option.elim_none, BearerEvent.handed,
        BearerEvent.called, BearerEvent.asCall, Option.toList_none, Multiset.coe_nil]
      abel
  | sendWrite op r hlimbo h =>
      apply le_of_eq
      simp only [Life.callbacks, Life.total, h, List.map_cons, List.map_nil, List.sum_cons,
        List.sum_nil, Multiset.map_cons, Multiset.sum_cons, BearerEvent.handed,
        BearerEvent.called, BearerEvent.asCall, Option.toList_none, Multiset.coe_nil]
      abel
  | retry op e hresponse h =>
      apply le_of_eq
      simp only [Life.callbacks, Life.total, h, List.map_cons, List.map_nil, List.sum_cons,
        List.sum_nil, Option.elim_some, Option.elim_none, (response_called hresponse).1,
        (response_called hresponse).2]
      abel
  | answerReq op callback opcode pdu h hcallback =>
      apply le_of_eq
      simp only [Life.callbacks, Life.total, h, hcallback, List.map_cons, List.map_nil,
        List.sum_cons, List.sum_nil, Option.elim_some, BearerEvent.handed, BearerEvent.called,
        BearerEvent.asCall, AttSendOp.answered, Option.toList_none, Multiset.coe_nil]
      abel
  | answerInd op callback opcode pdu h hcallback =>
      apply le_of_eq
      simp only [Life.callbacks, Life.total, h, hcallback, List.map_cons, List.map_nil,
        List.sum_cons, List.sum_nil, Option.elim_some, BearerEvent.handed, BearerEvent.called,
        BearerEvent.asCall, AttSendOp.answered, Option.toList_none, Multiset.coe_nil]
      abel
  | answer op limbo callback opcode pdu h hcallback =>
      apply le_of_eq
      simp only [Life.callbacks, Life.total, h, hcallback, List.map_cons, List.map_nil,
        List.sum_cons, List.sum_nil, Multiset.map_cons, Multiset.sum_cons, BearerEvent.handed,
        BearerEvent.called, BearerEvent.asCall, AttSendOp.answered, Option.toList_none,
        Multiset.coe_nil]
      abel
  | free op limbo h =>
      -- A callback that was not called is dropped with its operation.
      refine Multiset.le_iff_exists_add.mpr ⟨op.callback.toList, ?_⟩
      simp only [Life.callbacks, Life.total, h, Bearer.destroyAttSendOp, List.map_append,
        List.sum_append, (handed_destroyEvents op.destroy).1, (handed_destroyEvents op.destroy).2,
        List.map_cons, List.map_nil, List.sum_cons, List.sum_nil, Multiset.map_cons,
        Multiset.sum_cons, BearerEvent.handed, BearerEvent.called, BearerEvent.asCall,
        Option.toList_none, Multiset.coe_nil]
      abel
  | hold destroy handlers h =>
      apply le_of_eq
      simp only [Life.callbacks, Life.total, List.map_cons, List.map_nil, List.sum_cons,
        List.sum_nil, BearerEvent.handed, BearerEvent.called, BearerEvent.asCall,
        Option.toList_none, Multiset.coe_nil]
      abel
  | release destroy handlers h =>
      simp only [Life.callbacks, Life.total, (handed_destroyEvents destroy).1,
        (handed_destroyEvents destroy).2, add_zero, zero_add, le_refl]
  | neutral e h =>
      simp only [List.map_cons, List.map_nil, List.sum_cons, List.sum_nil, (neutral_called h).1,
        (neutral_called h).2, add_zero, zero_add, le_refl]

end Answers

end Wallclock
