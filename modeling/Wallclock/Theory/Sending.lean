import Wallclock.Theory.Lifecycle

/-!
# What Is Sent When

The order in which a bearer's moves send its operations.

`Typed` says that each queue has operations of its types. `waiting` are the
operations that have been taken out of their queues, and so those that were
sent and wait for an answer. `Move.waits` says what ends such a wait, and
`Move.sent` that nothing is waiting of the type of an operation that is being
sent. From these two `one_outstanding` follows: of the requests, and of the
indications, one is on its way at a time.

A request whose response makes it be retried goes back to the head of its
queue. The indications and the PDUs without an answer do not, so these two
queues, the `Lane`s, keep their order: `Move.conveys`.

## Main definitions

* `Life.Typed`: Operations are in the places for their types.
* `Life.waiting`: Those that have been taken out of their queues.
* `BearerEvent.Ends`: What ends the wait for an answer.
* `Sent`: What holds when an operation is sent.
* `Lane`, `Lane.Holds`, `Life.lane`: The two queues.
* `BearerEvent.enters`, `BearerEvent.leaves`: What they get and lose.
* `BearerEvent.Still`: An event that is about neither.

## Theorems

* `typed_enqueue`, `Move.typed`: The types are kept.
* `waiting_enqueue`, `Move.waits`: What waits goes on waiting.
* `sent_notMem_destroyEvents`, `Move.sent`: When an operation is sent.
* `one_outstanding`: Two of one type are not sent one after the other.
* `lane_enqueue`, `lanes_still`, `conveys_still`, `still_destroyEvents`,
  `still_destroyAttSendOp`, `still_singleton`, `BearerEvent.Neutral.still`: Single events and
  the queues.
* `Move.conveys`: What is sent from a queue was accepted, in that order.
-/

namespace Wallclock

variable {κ δ : Type*}

section Order

/-- The operations are in the places for their types. -/
structure Life.Typed (L : Life κ δ) : Prop where
  reqQueue : ∀ op ∈ L.reqQueue, op.type = .req
  pendingReq : ∀ op, L.pendingReq = some op → op.type = .req
  indQueue : ∀ op ∈ L.indQueue, op.type = .ind
  pendingInd : ∀ op, L.pendingInd = some op → op.type = .ind
  writeQueue : ∀ op ∈ L.writeQueue, ¬op.type.Elicits

theorem typed_enqueue {L : Life κ δ} (hL : L.Typed) (op : AttSendOp κ δ) :
    (L.enqueue op).Typed := by
  rw [Life.enqueue]
  split
  · case h_1 htype =>
      refine ⟨?_, hL.pendingReq, hL.indQueue, hL.pendingInd, hL.writeQueue⟩
      intro op' hop'
      rcases List.mem_append.mp hop' with hold | hnew
      · exact hL.reqQueue op' hold
      · rw [List.mem_singleton.mp hnew, htype]
  · case h_2 htype =>
      refine ⟨hL.reqQueue, hL.pendingReq, ?_, hL.pendingInd, hL.writeQueue⟩
      intro op' hop'
      rcases List.mem_append.mp hop' with hold | hnew
      · exact hL.indQueue op' hold
      · rw [List.mem_singleton.mp hnew, htype]
  · case h_3 hreq hind =>
      refine ⟨hL.reqQueue, hL.pendingReq, hL.indQueue, hL.pendingInd, ?_⟩
      intro op' hop'
      rcases List.mem_append.mp hop' with hold | hnew
      · exact hL.writeQueue op' hold
      · rw [List.mem_singleton.mp hnew]
        exact fun h => h.elim hreq hind

/-- Moves keep operations in the places for their types. -/
theorem Move.typed {L L' : Life κ δ} {es : List (BearerEvent κ δ)} (h : Move L es L')
    (hL : L.Typed) : L'.Typed := by
  cases h with
  | accept op => exact typed_enqueue hL op
  | takeReq l r op h =>
      refine ⟨fun op' hop' => hL.reqQueue op' ?_, hL.pendingReq, hL.indQueue, hL.pendingInd,
        hL.writeQueue⟩
      rw [h]
      simp only [List.mem_append, List.mem_cons] at hop' ⊢
      tauto
  | takeInd l r op h =>
      refine ⟨hL.reqQueue, hL.pendingReq, fun op' hop' => hL.indQueue op' ?_, hL.pendingInd,
        hL.writeQueue⟩
      rw [h]
      simp only [List.mem_append, List.mem_cons] at hop' ⊢
      tauto
  | takeWrite l r op h =>
      refine ⟨hL.reqQueue, hL.pendingReq, hL.indQueue, hL.pendingInd,
        fun op' hop' => hL.writeQueue op' ?_⟩
      rw [h]
      simp only [List.mem_append, List.mem_cons] at hop' ⊢
      tauto
  | takePendingReq op h =>
      exact ⟨hL.reqQueue, fun _ h => absurd h.symm (Option.some_ne_none _), hL.indQueue,
        hL.pendingInd, hL.writeQueue⟩
  | takePendingInd op h =>
      exact ⟨hL.reqQueue, hL.pendingReq, hL.indQueue,
        fun _ h => absurd h.symm (Option.some_ne_none _), hL.writeQueue⟩
  | cancelReq op h =>
      exact ⟨hL.reqQueue, fun _ h' => Option.some.inj h' ▸ hL.pendingReq op h, hL.indQueue,
        hL.pendingInd, hL.writeQueue⟩
  | cancelInd op h =>
      exact ⟨hL.reqQueue, hL.pendingReq, hL.indQueue,
        fun _ h' => Option.some.inj h' ▸ hL.pendingInd op h, hL.writeQueue⟩
  | sendReq op r hlimbo hpending h =>
      refine ⟨fun op' hop' => hL.reqQueue op' ?_, fun _ h' => ?_, hL.indQueue, hL.pendingInd,
        hL.writeQueue⟩
      · rw [h]
        exact List.mem_cons_of_mem op hop'
      · rw [← Option.some.inj h']
        exact hL.reqQueue op (by rw [h]; exact List.mem_cons_self)
  | sendInd op r hlimbo hpending h =>
      refine ⟨hL.reqQueue, hL.pendingReq, fun op' hop' => hL.indQueue op' ?_, fun _ h' => ?_,
        hL.writeQueue⟩
      · rw [h]
        exact List.mem_cons_of_mem op hop'
      · rw [← Option.some.inj h']
        exact hL.indQueue op (by rw [h]; exact List.mem_cons_self)
  | sendWrite op r hlimbo h =>
      refine ⟨hL.reqQueue, hL.pendingReq, hL.indQueue, hL.pendingInd,
        fun op' hop' => hL.writeQueue op' ?_⟩
      rw [h]
      exact List.mem_cons_of_mem op hop'
  | retry op e hresponse h =>
      refine ⟨fun op' hop' => ?_, fun _ h => absurd h.symm (Option.some_ne_none _), hL.indQueue,
        hL.pendingInd, hL.writeQueue⟩
      rcases List.mem_cons.mp hop' with heq | hold
      · rw [heq]
        exact hL.pendingReq op h
      · exact hL.reqQueue op' hold
  | answerReq op callback opcode pdu h hcallback =>
      exact ⟨hL.reqQueue, fun _ h' => Option.some.inj h' ▸ hL.pendingReq op h, hL.indQueue,
        hL.pendingInd, hL.writeQueue⟩
  | answerInd op callback opcode pdu h hcallback =>
      exact ⟨hL.reqQueue, hL.pendingReq, hL.indQueue,
        fun _ h' => Option.some.inj h' ▸ hL.pendingInd op h, hL.writeQueue⟩
  | answer => exact ⟨hL.reqQueue, hL.pendingReq, hL.indQueue, hL.pendingInd, hL.writeQueue⟩
  | free => exact ⟨hL.reqQueue, hL.pendingReq, hL.indQueue, hL.pendingInd, hL.writeQueue⟩
  | hold => exact ⟨hL.reqQueue, hL.pendingReq, hL.indQueue, hL.pendingInd, hL.writeQueue⟩
  | release => exact ⟨hL.reqQueue, hL.pendingReq, hL.indQueue, hL.pendingInd, hL.writeQueue⟩
  | neutral => exact hL

/-- The operations that have been taken out of their queues. -/
def Life.waiting (L : Life κ δ) : Multiset Packet :=
  ↑(L.pendingReq.toList.map AttSendOp.packet) + ↑(L.pendingInd.toList.map AttSendOp.packet) +
    L.limbo.map AttSendOp.packet

/-- What ends the wait for an answer: the operation is freed, or a response
    arrives, after which a request may be sent again. -/
def BearerEvent.Ends (p : Packet) : BearerEvent κ δ → Prop
  | .freed packet => packet = p
  | e => p.type = .req ∧ e.isResponse

theorem waiting_enqueue (L : Life κ δ) (op : AttSendOp κ δ) :
    (L.enqueue op).waiting = L.waiting := by
  rw [Life.enqueue]
  cases op.type <;> rfl

/-- An operation waits until something ends that. -/
theorem Move.waits {L L' : Life κ δ} {es : List (BearerEvent κ δ)} (h : Move L es L')
    (hL : L.Typed) {p : Packet} (hends : ∀ e ∈ es, ¬e.Ends p) (hwait : p ∈ L.waiting) :
    p ∈ L'.waiting := by
  cases h with
  | accept op => rwa [waiting_enqueue]
  | takeReq l r op h =>
      simp only [Life.waiting, Multiset.mem_add, Multiset.map_cons, Multiset.mem_cons] at hwait ⊢
      tauto
  | takeInd l r op h =>
      simp only [Life.waiting, Multiset.mem_add, Multiset.map_cons, Multiset.mem_cons] at hwait ⊢
      tauto
  | takeWrite l r op h =>
      simp only [Life.waiting, Multiset.mem_add, Multiset.map_cons, Multiset.mem_cons] at hwait ⊢
      tauto
  | takePendingReq op h =>
      simp only [Life.waiting, h, Option.toList_some, List.map_cons, List.map_nil,
        Multiset.mem_add, Multiset.coe_singleton, Multiset.mem_singleton, Multiset.map_cons,
        Multiset.mem_cons] at hwait ⊢
      tauto
  | takePendingInd op h =>
      simp only [Life.waiting, h, Option.toList_some, List.map_cons, List.map_nil,
        Multiset.mem_add, Multiset.coe_singleton, Multiset.mem_singleton, Multiset.map_cons,
        Multiset.mem_cons] at hwait ⊢
      tauto
  | cancelReq op h =>
      rw [Life.waiting, h] at hwait
      exact hwait
  | cancelInd op h =>
      rw [Life.waiting, h] at hwait
      exact hwait
  | sendReq op r hlimbo hpending h =>
      simp only [Life.waiting, hpending, Multiset.mem_add, Option.toList_none, List.map_nil,
        Multiset.coe_nil, Multiset.notMem_zero, false_or] at hwait ⊢
      tauto
  | sendInd op r hlimbo hpending h =>
      simp only [Life.waiting, hpending, Multiset.mem_add, Option.toList_none, List.map_nil,
        Multiset.coe_nil, Multiset.notMem_zero, or_false] at hwait ⊢
      tauto
  | sendWrite op r hlimbo h =>
      simp only [Life.waiting, Multiset.mem_add, Multiset.map_cons, Multiset.mem_cons] at hwait ⊢
      tauto
  | retry op e hresponse h =>
      simp only [Life.waiting, h, Multiset.mem_add, Option.toList_some, List.map_cons,
        List.map_nil, Multiset.coe_singleton, Multiset.mem_singleton] at hwait ⊢
      rcases hwait with (heq | hind) | hlimbo
      · -- The request goes back to its queue, after a response.
        have htype : p.type = .req := by
          rw [heq]
          exact hL.pendingReq op h
        refine absurd ?_ (hends e List.mem_cons_self)
        cases e with
        | received pdu => exact ⟨htype, hresponse⟩
        | _ => exact hresponse.elim
      · exact Or.inl (Or.inr hind)
      · exact Or.inr hlimbo
  | answerReq op callback opcode pdu h hcallback =>
      rw [Life.waiting, h] at hwait
      exact hwait
  | answerInd op callback opcode pdu h hcallback =>
      rw [Life.waiting, h] at hwait
      exact hwait
  | answer op limbo callback opcode pdu h hcallback =>
      rw [Life.waiting, h, Multiset.map_cons] at hwait
      rw [Life.waiting, Multiset.map_cons]
      exact hwait
  | free op limbo h =>
      simp only [Life.waiting, h, Multiset.mem_add, Multiset.map_cons, Multiset.mem_cons] at hwait ⊢
      rcases hwait with hpending | heq | hlimbo
      · exact Or.inl hpending
      · -- This is the operation that is freed.
        exact absurd heq.symm
          (hends (.freed op.packet) (List.mem_append_right _ List.mem_cons_self))
      · exact Or.inr hlimbo
  | hold => exact hwait
  | release => exact hwait
  | neutral => exact hwait

/-- When an operation is sent, no other of its type is waiting, and from then
    on it is waiting if it elicits an answer. -/
structure Sent (L : Life κ δ) (es : List (BearerEvent κ δ)) (L' : Life κ δ)
    (p : Packet) : Prop where
  alone : es = [.sent p]
  first : p.type.Elicits → ∀ q ∈ L.waiting, q.type ≠ p.type
  waits : p.type.Elicits → p ∈ L'.waiting

theorem sent_notMem_destroyEvents (destroy : Option δ) (p : Packet) :
    BearerEvent.sent p ∉ (destroyEvents destroy : List (BearerEvent κ δ)) := by
  cases destroy with
  | none => exact List.not_mem_nil
  | some d => exact fun h => absurd (List.mem_singleton.mp h) (by simp only [reduceCtorEq,
      not_false_eq_true])

theorem Move.sent {L L' : Life κ δ} {es : List (BearerEvent κ δ)} (h : Move L es L')
    (hL : L.Typed) {p : Packet} (hmem : .sent p ∈ es) : Sent L es L' p := by
  cases h with
  | sendReq x r hlimbo hpending h =>
      have hop := List.mem_singleton.mp hmem
      rw [BearerEvent.sent.injEq] at hop
      rw [hop]
      have htype : x.type = .req := hL.reqQueue x (by rw [h]; exact List.mem_cons_self)
      refine ⟨rfl, fun _ q hq => ?_, fun _ => ?_⟩
      · -- Only an indication can be waiting.
        simp only [Life.waiting, hpending, hlimbo, Option.toList_none, List.map_nil,
          Multiset.coe_nil, zero_add, add_zero, Multiset.map_zero, Multiset.mem_coe,
          List.mem_map, Option.mem_toList] at hq
        rcases hq with ⟨y, hy, rfl⟩
        intro heq
        exact AttOpType.noConfusion ((hL.pendingInd y hy).symm.trans (heq.trans htype))
      · simp only [Life.waiting, Option.toList_some, List.map_cons, List.map_nil,
          Multiset.coe_singleton, Multiset.mem_add, Multiset.mem_singleton]
        exact Or.inl (Or.inl rfl)
  | sendInd x r hlimbo hpending h =>
      have hop := List.mem_singleton.mp hmem
      rw [BearerEvent.sent.injEq] at hop
      rw [hop]
      have htype : x.type = .ind := hL.indQueue x (by rw [h]; exact List.mem_cons_self)
      refine ⟨rfl, fun _ q hq => ?_, fun _ => ?_⟩
      · simp only [Life.waiting, hpending, hlimbo, Option.toList_none, List.map_nil,
          Multiset.coe_nil, add_zero, Multiset.map_zero, Multiset.mem_coe, List.mem_map,
          Option.mem_toList] at hq
        rcases hq with ⟨y, hy, rfl⟩
        intro heq
        exact AttOpType.noConfusion ((hL.pendingReq y hy).symm.trans (heq.trans htype))
      · simp only [Life.waiting, Option.toList_some, List.map_cons, List.map_nil,
          Multiset.coe_singleton, Multiset.mem_add, Multiset.mem_singleton]
        exact Or.inl (Or.inr rfl)
  | sendWrite x r hlimbo h =>
      have hop := List.mem_singleton.mp hmem
      rw [BearerEvent.sent.injEq] at hop
      rw [hop]
      have htype := hL.writeQueue x (by rw [h]; exact List.mem_cons_self)
      exact ⟨rfl, fun helicits => absurd helicits htype, fun helicits => absurd helicits htype⟩
  | cancelReq x h => exact absurd hmem (sent_notMem_destroyEvents x.destroy p)
  | cancelInd x h => exact absurd hmem (sent_notMem_destroyEvents x.destroy p)
  | release destroy handlers h => exact absurd hmem (sent_notMem_destroyEvents destroy p)
  | free x limbo h =>
      rcases List.mem_append.mp hmem with hdestroy | hfreed
      · exact absurd hdestroy (sent_notMem_destroyEvents x.destroy p)
      · exact absurd (List.mem_singleton.mp hfreed) (by simp only [reduceCtorEq,
          not_false_eq_true])
  | retry x e hresponse h =>
      rw [List.mem_singleton] at hmem
      rw [← hmem] at hresponse
      exact hresponse.elim
  | neutral e h =>
      rw [List.mem_singleton] at hmem
      rw [← hmem] at h
      exact h.elim
  | _ => simp only [List.mem_singleton, List.not_mem_nil, reduceCtorEq] at hmem

/-- Two operations of one type that elicits answers are not sent one after the
    other: in between the first is freed, or a response arrives for it. -/
theorem one_outstanding {L L' : Life κ δ} {es before mid after : List (BearerEvent κ δ)}
    (hpath : Moves Move L es L') (hL : L.Typed) {p p' : Packet}
    (hes : es = before ++ .sent p :: (mid ++ .sent p' :: after))
    (helicits : p.type.Elicits) (htype : p'.type = p.type) : ∃ e ∈ mid, e.Ends p := by
  by_contra hnone
  rw [not_exists] at hnone
  have hkeep : ∀ (L : Life κ δ) es L', L.Typed → Move L es L' → L'.Typed :=
    fun _ _ _ hL h => h.typed hL
  -- The first of them is waiting once it is sent.
  rcases hpath.exists_move hes with ⟨M, M', first, last, earlier, later, hfirst, hmove, hlast,
    _, hlater⟩
  have hM := hfirst.invariant Life.Typed hkeep hL
  have hsent := hmove.sent hM (List.mem_append_right _ List.mem_cons_self)
  have hsplit := List.append_eq_singleton_iff.mp hsent.alone
  have hnil : later = [] := by
    rcases hsplit with ⟨_, h⟩ | ⟨_, h⟩
    · exact (List.cons.inj h).2
    · exact absurd h (List.cons_ne_nil _ _)
  rw [hnil, List.nil_append] at hlater
  have hwaits := hsent.waits helicits
  -- It still is when the second is sent.
  rcases hlast.exists_move hlater.symm with ⟨N, N', first', _, earlier', later', hfirst', hmove',
    _, hmid, _⟩
  have htyped : N.Typed ∧ p ∈ N.waiting := by
    refine Moves.invariant_of (fun L : Life κ δ => L.Typed ∧ p ∈ L.waiting)
      (fun e => ¬e.Ends p) ?_ ?_ ⟨hmove.typed hM, hwaits⟩ hfirst'
    · rintro s es s' ⟨hs, hw⟩ hes hm
      exact ⟨hm.typed hs, hm.waits hs hes hw⟩
    · intro e he hends
      exact hnone e ⟨hmid ▸ List.mem_append_left _ he, hends⟩
  have hsent' := hmove'.sent htyped.1 (List.mem_append_right _ List.mem_cons_self)
  exact hsent'.first (htype ▸ helicits) p htyped.2 htype.symm

end Order

section Lanes

/-- The two queues whose operations are sent at most once. -/
inductive Lane
  | ind
  | write

/-- The types of a queue. -/
def Lane.Holds : Lane → AttOpType → Bool
  | .ind, type => type = .ind
  | .write, type => type ≠ .req ∧ type ≠ .ind

def Life.lane (L : Life κ δ) : Lane → List Packet
  | .ind => L.indQueue.map AttSendOp.packet
  | .write => L.writeQueue.map AttSendOp.packet

/-- The operation that is accepted into a queue. -/
def BearerEvent.enters (lane : Lane) : BearerEvent κ δ → Option Packet
  | .accepted op => if lane.Holds op.type then some op.packet else none
  | _ => none

/-- The operation that is sent from a queue. -/
def BearerEvent.leaves (lane : Lane) : BearerEvent κ δ → Option Packet
  | .sent p => if lane.Holds p.type then some p else none
  | _ => none

theorem lane_enqueue (lane : Lane) (L : Life κ δ) (op : AttSendOp κ δ) :
    (L.enqueue op).lane lane =
      L.lane lane ++ if lane.Holds op.type then [op.packet] else [] := by
  rw [Life.enqueue]
  cases lane <;> cases op.type <;> simp [Life.lane, Lane.Holds]

/-- An event that neither accepts nor sends an operation. -/
def BearerEvent.Still : BearerEvent κ δ → Prop
  | .accepted _ => False
  | .sent _ => False
  | _ => True

theorem lanes_still {es : List (BearerEvent κ δ)} (h : ∀ e ∈ es, e.Still) (lane : Lane) :
    es.filterMap (BearerEvent.leaves lane) = [] ∧ es.filterMap (BearerEvent.enters lane) = [] := by
  constructor
  · rw [List.filterMap_eq_nil_iff]
    intro e he
    cases e with
    | sent op => exact (h _ he).elim
    | _ => rfl
  · rw [List.filterMap_eq_nil_iff]
    intro e he
    cases e with
    | accepted op => exact (h _ he).elim
    | _ => rfl

/-- A move whose events are still and that only takes from a queue. -/
theorem conveys_still {L L' : Life κ δ} {es : List (BearerEvent κ δ)} (lane : Lane)
    (h : ∀ e ∈ es, e.Still) (hsub : (L'.lane lane).Sublist (L.lane lane)) :
    (es.filterMap (BearerEvent.leaves lane) ++ L'.lane lane).Sublist
      (L.lane lane ++ es.filterMap (BearerEvent.enters lane)) := by
  rw [(lanes_still h lane).1, (lanes_still h lane).2, List.nil_append, List.append_nil]
  exact hsub

theorem still_destroyEvents (destroy : Option δ) :
    ∀ e ∈ (destroyEvents destroy : List (BearerEvent κ δ)), e.Still := by
  intro e he
  rcases List.mem_map.mp he with ⟨d, _, rfl⟩
  trivial

theorem still_destroyAttSendOp (op : AttSendOp κ δ) :
    ∀ e ∈ Bearer.destroyAttSendOp op, e.Still := by
  intro e he
  rcases List.mem_append.mp he with hdestroy | hfreed
  · exact still_destroyEvents op.destroy e hdestroy
  · rw [List.mem_singleton.mp hfreed]
    trivial

theorem still_singleton (e : BearerEvent κ δ) (h : e.Still) : ∀ x ∈ [e], x.Still := by
  intro x hx
  rwa [List.mem_singleton.mp hx]

theorem BearerEvent.Neutral.still {e : BearerEvent κ δ} (h : e.Neutral) : e.Still := by
  cases e with
  | accepted op => exact h.elim
  | sent op => exact h.elim
  | _ => trivial

/-- What is sent from a queue has been accepted into it, in that order. -/
theorem Move.conveys {L L' : Life κ δ} {es : List (BearerEvent κ δ)} (h : Move L es L')
    (hL : L.Typed) (lane : Lane) :
    (es.filterMap (BearerEvent.leaves lane) ++ L'.lane lane).Sublist
      (L.lane lane ++ es.filterMap (BearerEvent.enters lane)) := by
  cases h with
  | accept op =>
      rw [lane_enqueue]
      cases hlane : lane.Holds op.type <;>
        simp [BearerEvent.enters, BearerEvent.leaves, hlane]
  | takeReq l r op h =>
      refine conveys_still lane (fun e he => absurd he List.not_mem_nil) ?_
      cases lane <;> exact List.Sublist.refl _
  | takeInd l r op h =>
      refine conveys_still lane (fun e he => absurd he List.not_mem_nil) ?_
      cases lane with
      | ind =>
          rw [Life.lane, Life.lane, h]
          exact List.Sublist.map _ ((List.Sublist.refl l).append (List.sublist_cons_self op r))
      | write => exact List.Sublist.refl _
  | takeWrite l r op h =>
      refine conveys_still lane (fun e he => absurd he List.not_mem_nil) ?_
      cases lane with
      | ind => exact List.Sublist.refl _
      | write =>
          rw [Life.lane, Life.lane, h]
          exact List.Sublist.map _ ((List.Sublist.refl l).append (List.sublist_cons_self op r))
  | takePendingReq op h =>
      refine conveys_still lane (fun e he => absurd he List.not_mem_nil) ?_
      cases lane <;> exact List.Sublist.refl _
  | takePendingInd op h =>
      refine conveys_still lane (fun e he => absurd he List.not_mem_nil) ?_
      cases lane <;> exact List.Sublist.refl _
  | cancelReq op h =>
      refine conveys_still lane (still_destroyEvents op.destroy) ?_
      cases lane <;> exact List.Sublist.refl _
  | cancelInd op h =>
      refine conveys_still lane (still_destroyEvents op.destroy) ?_
      cases lane <;> exact List.Sublist.refl _
  | sendReq op r hlimbo hpending h =>
      have htype : op.type = .req := hL.reqQueue op (by rw [h]; exact List.mem_cons_self)
      cases lane <;> simp [BearerEvent.leaves, BearerEvent.enters, Lane.Holds, htype, Life.lane,
        AttSendOp.packet]
  | sendInd op r hlimbo hpending h =>
      have htype : op.type = .ind := hL.indQueue op (by rw [h]; exact List.mem_cons_self)
      cases lane <;> simp [BearerEvent.leaves, BearerEvent.enters, Lane.Holds, htype, Life.lane, h,
        AttSendOp.packet]
  | sendWrite op r hlimbo h =>
      have htype := hL.writeQueue op (by rw [h]; exact List.mem_cons_self)
      rw [AttOpType.Elicits, not_or] at htype
      cases lane <;> simp [BearerEvent.leaves, BearerEvent.enters, Lane.Holds, htype, Life.lane, h,
        AttSendOp.packet]
  | retry op e hresponse h =>
      refine conveys_still lane (still_singleton e ?_) ?_
      · cases e with
        | received pdu => trivial
        | _ => exact hresponse.elim
      · cases lane <;> exact List.Sublist.refl _
  | answerReq op callback opcode pdu h hcallback =>
      refine conveys_still lane (still_singleton _ trivial) ?_
      cases lane <;> exact List.Sublist.refl _
  | answerInd op callback opcode pdu h hcallback =>
      refine conveys_still lane (still_singleton _ trivial) ?_
      cases lane <;> exact List.Sublist.refl _
  | answer op limbo callback opcode pdu h hcallback =>
      refine conveys_still lane (still_singleton _ trivial) ?_
      cases lane <;> exact List.Sublist.refl _
  | free op limbo h =>
      refine conveys_still lane (still_destroyAttSendOp op) ?_
      cases lane <;> exact List.Sublist.refl _
  | hold destroy handlers h =>
      refine conveys_still lane (still_singleton _ trivial) ?_
      cases lane <;> exact List.Sublist.refl _
  | release destroy handlers h =>
      refine conveys_still lane (still_destroyEvents destroy) ?_
      cases lane <;> exact List.Sublist.refl _
  | neutral e h =>
      exact conveys_still lane (still_singleton e h.still) (List.Sublist.refl _)

end Lanes

end Wallclock
