import Wallclock.Theory.Sending

/-!
# The Bearer's Steps Are Moves

Every step of the bearer is a path of moves, whatever the layer above does in
its callbacks. So the laws of the moves are laws of the code.

A function that holds operations in its variables has them in `limbo`, and
calls that are made meanwhile leave them there. The one difficulty is an
operation whose callback is called while it is still pending: a call of the
transport inside the callback finds it there, callback and all. On the path it
has been answered by then. `muted` is the bearer with its pending operations
answered, and `performAll_muted` says that the calls do the same to it.

## Main definitions

* `Bearer.handlers`, `Bearer.life`: Where the operations are.
* `Bearer.muted`: The pending operations have been answered.
* `Life.empty`: Nothing is left.

## Theorems

* `life_wakeupWriter`, `life_enqueue`, `removeOp_split`, `destroys_eraseP`,
  `destroys_set`, `destroys_append`: The lists of a bearer.
* `free_path`, `takeReqs_path`, `takeInds_path`, `takeWrites_path`,
  `cancelPendingReq_path`, `cancelPendingInd_path`, `release_path`: Paths that
  several functions take.
* `createAttSendOp_path`, `btAttSend_path`, `btAttCancel_path`, `btAttCancelAll_path`,
  `btAttUnregisterAll_path`, `btAttUnregister_path`,
  `btAttUnregisterDisconnect_path`, `btAttRegister_path`,
  `btAttRegisterDisconnect_path`, `btAttSetTimeoutCb_path`, `perform_path`,
  `performAll_path`: The calls of the transport.
* `wakeupWriter_muted`, `cancelPending_answered`, `any_answered`,
  `btAttSend_muted`, `btAttCancel_muted`, `btAttCancelAll_muted`,
  `btAttUnregisterDisconnect_muted`, `perform_muted`, `performAll_muted`: The
  same calls on a muted bearer.
* `upcall_path`, `answered_of_none`, `respond_path`, `discAttSendOp_path`,
  `discAll_path`: Callbacks, and the ends of queued operations.
* `freeReq_path`, `freeInd_path`, `destroy_answered`, `endReq_path`,
  `endInd_path`: The ends of pending operations.
* `pick_cases`, `pick_path`, `canWriteData_path`: Writing to the socket.
* `expire_path`, `timeoutCb_path`: Timers.
* `finishRsp_path`, `changeSecurity_level`, `handleErrorRsp_cases`,
  `handleRsp_path`, `handleConf_path`, `notifyAll_path`, `afterNotify_path`,
  `handleNotify_path`, `canReadData_path`: Reading from it.
* `disconnHandlers_path`, `disconnectCb_path`: A disconnect.
* `btAttUnref_path`: The last reference is given up.
* `step_path`, `step_stop`, `stop_path`, `bearer_path`: The steps of the bearer,
  and its runs.
-/

namespace Wallclock

variable {ε σ κ δ : Type*}

namespace Bearer

/-- The destroy functions of the handlers. -/
def handlers (att : Bearer κ δ) : Multiset δ :=
  ↑(att.notifyList.filterMap AttNotify.destroy) + ↑(att.disconnList.filterMap AttDisconn.destroy) +
    ↑att.timeoutDestroy.toList

/-- Where the operations are, with those that the code holds in its variables. -/
def life (att : Bearer κ δ) (limbo : Multiset (AttSendOp κ δ)) : Life κ δ :=
  ⟨att.reqQueue, att.pendingReq, att.indQueue, att.pendingInd, att.writeQueue, limbo, att.handlers⟩

variable {att att' : Bearer κ δ} {limbo : Multiset (AttSendOp κ δ)}

theorem life_wakeupWriter (att : Bearer κ δ) (limbo : Multiset (AttSendOp κ δ)) :
    att.wakeupWriter.life limbo = att.life limbo := by
  rw [wakeupWriter]
  split
  · rfl
  · split
    · rfl
    · split <;> rfl

theorem life_enqueue (att : Bearer κ δ) (op : AttSendOp κ δ) (limbo : Multiset (AttSendOp κ δ)) :
    (att.enqueue op).life limbo = (att.life limbo).enqueue op := by
  rw [enqueue, Life.enqueue]
  cases op.type <;> rfl

/-- An access past the end of a block is about no operation. -/
theorem createAttSendOp_path (att : Bearer κ δ) (opcode : UInt8) (pdu : List UInt8)
    (callback : Option κ) (destroy : Option δ) (uninit : Uninit) (L : Life κ δ) :
    Moves Move L (att.createAttSendOp opcode pdu callback destroy uninit).1 L := by
  simp only [createAttSendOp]
  split_ifs
  · exact Moves.nil _
  · exact Moves.single (Move.neutral _ _ trivial)
  · exact Moves.nil _

theorem btAttSend_path (opcode : UInt8) (pdu : List UInt8) (callback : Option κ)
    (destroy : Option δ) (uninit : Uninit) :
    Moves Move (att.life limbo) (att.btAttSend opcode pdu callback destroy uninit).1
      ((att.btAttSend opcode pdu callback destroy uninit).2.life limbo) := by
  have hcreate := createAttSendOp_path att opcode pdu callback destroy uninit (att.life limbo)
  rw [btAttSend]
  split
  · exact Moves.nil _
  rcases h : att.createAttSendOp opcode pdu callback destroy uninit with ⟨events, _ | op⟩
  · rw [h] at hcreate
    exact hcreate
  · rw [h] at hcreate
    refine hcreate.trans ?_
    simp only
    rw [life_wakeupWriter, life_enqueue]
    exact Moves.single (Move.accept _ _)

/-- What `queue_remove_if` takes out of a queue. -/
theorem removeOp_split {id : BitVec 32} {queue rest : List (AttSendOp κ δ)} {op : AttSendOp κ δ}
    (h : removeOp id queue = some (op, rest)) : ∃ l r, queue = l ++ op :: r ∧ rest = l ++ r := by
  rw [removeOp] at h
  cases hfind : queue.find? (fun op => decide (op.id = id)) with
  | none =>
      rw [hfind] at h
      exact absurd h.symm (Option.some_ne_none _)
  | some x =>
      rw [hfind] at h
      rcases List.find?_eq_some_iff_append.mp hfind with ⟨hx, l, r, hqueue, hl⟩
      obtain ⟨rfl, rfl⟩ : x = op ∧ queue.eraseP (fun op => decide (op.id = id)) = rest := by
        simpa only [bind, Option.bind, Option.some.injEq, Prod.mk.injEq] using h
      refine ⟨l, r, hqueue, ?_⟩
      rw [hqueue, List.eraseP_append_right _ (fun b hb => by simpa using hl b hb)]
      refine congrArg (l ++ ·) ?_
      exact List.eraseP_cons_of_pos hx

/-- Operations that are held in variables are freed. -/
theorem free_path (L : Life κ δ) (ops : List (AttSendOp κ δ)) (limbo : Multiset (AttSendOp κ δ))
    (hlimbo : L.limbo = ↑ops + limbo) :
    Moves Move L (ops.flatMap destroyAttSendOp) { L with limbo } := by
  induction ops generalizing L with
  | nil =>
      rw [Multiset.coe_nil, zero_add] at hlimbo
      rw [← hlimbo]
      exact Moves.nil L
  | cons op ops ih =>
      rw [List.flatMap_cons]
      rw [← Multiset.cons_coe, Multiset.cons_add] at hlimbo
      exact (Moves.single (Move.free L op _ hlimbo)).trans (ih { L with limbo := ↑ops + limbo } rfl)

/-- A queue is emptied. -/
theorem takeReqs_path (L : Life κ δ) (queue : List (AttSendOp κ δ)) (h : L.reqQueue = queue) :
    Moves Move L [] { L with reqQueue := [], limbo := ↑queue + L.limbo } := by
  induction queue generalizing L with
  | nil =>
      rw [Multiset.coe_nil, zero_add, ← h]
      exact Moves.nil L
  | cons op r ih =>
      have hrest := ih { L with reqQueue := r, limbo := op ::ₘ L.limbo } rfl
      rw [Multiset.add_cons, ← Multiset.cons_add, Multiset.cons_coe] at hrest
      exact Moves.cons (Move.takeReq L [] r op h) hrest

theorem takeInds_path (L : Life κ δ) (queue : List (AttSendOp κ δ)) (h : L.indQueue = queue) :
    Moves Move L [] { L with indQueue := [], limbo := ↑queue + L.limbo } := by
  induction queue generalizing L with
  | nil =>
      rw [Multiset.coe_nil, zero_add, ← h]
      exact Moves.nil L
  | cons op r ih =>
      have hrest := ih { L with indQueue := r, limbo := op ::ₘ L.limbo } rfl
      rw [Multiset.add_cons, ← Multiset.cons_add, Multiset.cons_coe] at hrest
      exact Moves.cons (Move.takeInd L [] r op h) hrest

theorem takeWrites_path (L : Life κ δ) (queue : List (AttSendOp κ δ)) (h : L.writeQueue = queue) :
    Moves Move L [] { L with writeQueue := [], limbo := ↑queue + L.limbo } := by
  induction queue generalizing L with
  | nil =>
      rw [Multiset.coe_nil, zero_add, ← h]
      exact Moves.nil L
  | cons op r ih =>
      have hrest := ih { L with writeQueue := r, limbo := op ::ₘ L.limbo } rfl
      rw [Multiset.add_cons, ← Multiset.cons_add, Multiset.cons_coe] at hrest
      exact Moves.cons (Move.takeWrite L [] r op h) hrest

theorem btAttCancel_path (id : BitVec 32) :
    Moves Move (att.life limbo) (att.btAttCancel id).1 ((att.btAttCancel id).2.life limbo) := by
  rw [btAttCancel]
  split
  · exact Moves.nil _
  · split
    · case isTrue hreq =>
        cases hpending : att.pendingReq with
        | none =>
            rw [hpending] at hreq
            exact absurd hreq (by simp only [Option.any_none, Bool.false_eq_true,
              not_false_eq_true])
        | some op => exact Moves.single (Move.cancelReq (att.life limbo) op hpending)
    · split
      · case isTrue hind =>
          cases hpending : att.pendingInd with
          | none =>
              rw [hpending] at hind
              exact absurd hind (by simp only [Option.any_none, Bool.false_eq_true,
                not_false_eq_true])
          | some op => exact Moves.single (Move.cancelInd (att.life limbo) op hpending)
      · -- The operation is in one of the queues, or there is none.
        split
        · case h_1 op rest hremove =>
            rcases removeOp_split hremove with ⟨l, r, hqueue, hrest⟩
            rw [life_wakeupWriter, hrest]
            exact Moves.silent (Move.takeReq (att.life limbo) l r op hqueue)
              (Moves.single (Move.free _ op limbo rfl))
        · split
          · case h_1 op rest hremove =>
              rcases removeOp_split hremove with ⟨l, r, hqueue, hrest⟩
              rw [life_wakeupWriter, hrest]
              exact Moves.silent (Move.takeInd (att.life limbo) l r op hqueue)
                (Moves.single (Move.free _ op limbo rfl))
          · split
            · case h_1 op rest hremove =>
                rcases removeOp_split hremove with ⟨l, r, hqueue, hrest⟩
                rw [life_wakeupWriter, hrest]
                exact Moves.silent (Move.takeWrite (att.life limbo) l r op hqueue)
                  (Moves.single (Move.free _ op limbo rfl))
            · exact Moves.nil _

theorem cancelPendingReq_path (L : Life κ δ) :
    Moves Move L (cancelPending L.pendingReq).1
      { L with pendingReq := (cancelPending L.pendingReq).2 } := by
  rcases hpending : L.pendingReq with _ | op
  · rw [cancelPending, ← hpending]
    exact Moves.nil L
  · exact Moves.single (Move.cancelReq L op hpending)

theorem cancelPendingInd_path (L : Life κ δ) :
    Moves Move L (cancelPending L.pendingInd).1
      { L with pendingInd := (cancelPending L.pendingInd).2 } := by
  rcases hpending : L.pendingInd with _ | op
  · rw [cancelPending, ← hpending]
    exact Moves.nil L
  · exact Moves.single (Move.cancelInd L op hpending)

theorem btAttCancelAll_path :
    Moves Move (att.life limbo) att.btAttCancelAll.1 (att.btAttCancelAll.2.life limbo) := by
  rw [btAttCancelAll]
  -- The queues are emptied, what was in them is freed, and then the two that
  -- are pending lose their functions.
  have hreqs := takeReqs_path (att.life limbo) att.reqQueue rfl
  have hinds := takeInds_path { att.life limbo with
    reqQueue := [], limbo := ↑att.reqQueue + limbo } att.indQueue rfl
  have hwrites := takeWrites_path { att.life limbo with
    reqQueue := [], indQueue := [], limbo := ↑att.indQueue + (↑att.reqQueue + limbo) }
    att.writeQueue rfl
  have hfree := free_path { att.life limbo with
    reqQueue := [], indQueue := [], writeQueue := []
    limbo := ↑att.writeQueue + (↑att.indQueue + (↑att.reqQueue + limbo)) }
    (att.reqQueue ++ att.indQueue ++ att.writeQueue) limbo (by
      simp only [← Multiset.coe_add]
      abel)
  have hreq := cancelPendingReq_path { att.life limbo with
    reqQueue := [], indQueue := [], writeQueue := [] }
  have hind := cancelPendingInd_path { att.life limbo with
    reqQueue := [], indQueue := [], writeQueue := []
    pendingReq := (cancelPending att.pendingReq).2 }
  exact ((((hreqs.trans hinds).trans hwrites).trans hfree).trans hreq).trans hind

/-- Destroy functions of handlers are called. -/
theorem release_path (L : Life κ δ) (destroys : List (Option δ)) (handlers : Multiset δ)
    (h : L.handlers = ↑(destroys.filterMap id) + handlers) :
    Moves Move L (destroys.flatMap destroyEvents) { L with handlers } := by
  induction destroys generalizing L with
  | nil =>
      rw [List.filterMap_nil, Multiset.coe_nil, zero_add] at h
      rw [← h]
      exact Moves.nil L
  | cons destroy destroys ih =>
      rw [List.flatMap_cons]
      refine (Moves.single (Move.release L destroy (↑(destroys.filterMap id) + handlers) ?_)).trans
        (ih { L with handlers := ↑(destroys.filterMap id) + handlers } rfl)
      rw [h, ← add_assoc, Multiset.coe_add]
      cases destroy <;> rfl

theorem btAttUnregisterAll_path :
    Moves Move (att.life limbo) att.btAttUnregisterAll.1 (att.btAttUnregisterAll.2.life limbo) := by
  refine release_path (att.life limbo) _ _ ?_
  change att.handlers = _ + (↑([] : List δ) + ↑([] : List δ) + ↑att.timeoutDestroy.toList)
  rw [List.filterMap_append, List.filterMap_map, List.filterMap_map, ← Multiset.coe_add,
    Multiset.coe_nil, zero_add, zero_add]
  rfl

/-- The destroy functions of a list are those of an entry and of the others. -/
theorem destroys_eraseP {α : Type*} {p : α → Bool} {list : List α} {x : α} (f : α → Option δ)
    (h : list.find? p = some x) :
    (↑(list.filterMap f) : Multiset δ) = ↑(f x).toList + ↑((list.eraseP p).filterMap f) := by
  rcases List.find?_eq_some_iff_append.mp h with ⟨hx, l, r, rfl, hl⟩
  rw [List.eraseP_append_right _ (fun b hb => by simpa using hl b hb),
    List.eraseP_cons_of_pos hx, List.filterMap_append, List.filterMap_append,
    ← Multiset.coe_add, ← Multiset.coe_add]
  cases hf : f x with
  | none => rw [List.filterMap_cons_none hf, Option.toList_none, Multiset.coe_nil, zero_add]
  | some d =>
      rw [List.filterMap_cons_some hf, Option.toList_some, Multiset.coe_singleton,
        ← Multiset.cons_coe, Multiset.add_cons, Multiset.singleton_add]

/-- An entry that is replaced by one with the same destroy function. -/
theorem destroys_set {α : Type*} {p : α → Bool} {list : List α} {x y : α} (f : α → Option δ)
    (h : list.find? p = some x) (hf : f y = f x) :
    (list.set (list.findIdx p) y).filterMap f = list.filterMap f := by
  rcases List.find?_eq_some_iff_append.mp h with ⟨hx, l, r, rfl, hl⟩
  have hnone : ¬l.findIdx p < l.length := by
    rw [List.findIdx_lt_length]
    rintro ⟨b, hb, hpb⟩
    exact absurd (hl b hb) (by simp only [hpb, Bool.not_true, Bool.false_eq_true,
      not_false_eq_true])
  have hindex : (l ++ x :: r).findIdx p = l.length := by
    rw [List.findIdx_append, if_neg hnone, List.findIdx_cons, hx, cond_true, Nat.zero_add]
  rw [hindex, List.set_append_right _ _ (Nat.le_refl _), Nat.sub_self, List.set_cons_zero,
    List.filterMap_append, List.filterMap_append]
  refine congrArg (_ ++ ·) ?_
  cases hfx : f x with
  | none => rw [List.filterMap_cons_none (hf.trans hfx), List.filterMap_cons_none hfx]
  | some d => rw [List.filterMap_cons_some (hf.trans hfx), List.filterMap_cons_some hfx]

theorem btAttUnregister_path (id : BitVec 32) :
    Moves Move (att.life limbo) (att.btAttUnregister id).1
      ((att.btAttUnregister id).2.life limbo) := by
  rw [btAttUnregister]
  split
  · exact Moves.nil _
  · split
    · exact Moves.nil _
    · case h_2 notify hfind =>
        refine Moves.single (Move.release (att.life limbo) notify.destroy _ ?_)
        change att.handlers = _
        rw [handlers, destroys_eraseP AttNotify.destroy hfind]
        simp only [handlers, add_assoc]

theorem btAttUnregisterDisconnect_path (id : BitVec 32) :
    Moves Move (att.life limbo) (att.btAttUnregisterDisconnect id).1
      ((att.btAttUnregisterDisconnect id).2.life limbo) := by
  rw [btAttUnregisterDisconnect]
  split
  · exact Moves.nil _
  · split
    · exact Moves.nil _
    · case h_2 disconn hfind =>
        split
        · -- The entry keeps its destroy function.
          have hsame := destroys_set (y := { disconn with removed := true }) AttDisconn.destroy
            hfind rfl
          simp only [life, handlers, hsame]
          exact Moves.nil _
        · refine Moves.single (Move.release (att.life limbo) disconn.destroy _ ?_)
          change att.handlers = _
          rw [handlers, destroys_eraseP AttDisconn.destroy hfind]
          simp only [handlers]
          abel

/-- The destroy functions of a list with one more entry. -/
theorem destroys_append {α : Type*} (list : List α) (x : α) (f : α → Option δ) :
    (↑((list ++ [x]).filterMap f) : Multiset δ) = ↑(list.filterMap f) + ↑(f x).toList := by
  rw [List.filterMap_append, ← Multiset.coe_add]
  cases hf : f x with
  | none => rw [List.filterMap_cons_none hf]; rfl
  | some d => rw [List.filterMap_cons_some hf]; rfl

theorem btAttRegister_path (opcode : UInt8) (callback : κ) (destroy : Option δ) :
    Moves Move (att.life limbo) (att.btAttRegister opcode callback destroy).1
      ((att.btAttRegister opcode callback destroy).2.life limbo) := by
  rw [btAttRegister]
  split
  · exact Moves.nil _
  · refine Moves.single (Move.hold (att.life limbo) destroy _ ?_)
    change _ = _ + att.handlers
    simp only [handlers, destroys_append]
    abel

theorem btAttRegisterDisconnect_path (callback : Option κ) (destroy : Option δ) :
    Moves Move (att.life limbo) (att.btAttRegisterDisconnect callback destroy).1
      ((att.btAttRegisterDisconnect callback destroy).2.life limbo) := by
  rw [btAttRegisterDisconnect]
  split
  · exact Moves.nil _
  · refine Moves.single (Move.hold (att.life limbo) destroy _ ?_)
    change _ = _ + att.handlers
    simp only [handlers, destroys_append]
    abel

theorem btAttSetTimeoutCb_path (callback : Option κ) (destroy : Option δ) :
    Moves Move (att.life limbo) (att.btAttSetTimeoutCb callback destroy).1
      ((att.btAttSetTimeoutCb callback destroy).2.life limbo) := by
  rw [btAttSetTimeoutCb]
  have hrelease := Moves.single (Move.release (att.life limbo) att.timeoutDestroy
    (↑(att.notifyList.filterMap AttNotify.destroy) +
      ↑(att.disconnList.filterMap AttDisconn.destroy)) (add_comm _ _))
  exact hrelease.trans (Moves.single (Move.hold _ destroy _ (add_comm _ _)))

/-- What a call of the transport does is a path. -/
theorem perform_path (call : AttCall κ δ) :
    Moves Move (att.life limbo) (att.perform call).1 ((att.perform call).2.life limbo) := by
  cases call with
  | send opcode pdu callback destroy uninit =>
      exact btAttSend_path opcode pdu callback destroy uninit
  | cancel id => exact btAttCancel_path id
  | cancelAll => exact btAttCancelAll_path
  | unregisterDisconnect id => exact btAttUnregisterDisconnect_path id
  | setMtu mtu =>
      rw [perform, btAttSetMtu]
      split <;> exact Moves.nil _
  | setSecurity level accepted =>
      rw [perform, btAttSetSecurity]
      split
      · exact Moves.nil _
      · split <;> exact Moves.nil _
  | setEncKeySize encSize => exact Moves.nil _
  | setLocalKey sign => exact Moves.nil _
  | setRemoteKey sign => exact Moves.nil _

theorem performAll_path (calls : List (AttCall κ δ)) :
    Moves Move (att.life limbo) (att.performAll calls).1 ((att.performAll calls).2.life limbo) := by
  induction calls generalizing att with
  | nil => exact Moves.nil _
  | cons call calls ih => exact perform_path call |>.trans ih

/-- The pending operations have been answered, as their callbacks run. -/
def muted (req ind : Bool) (att : Bearer κ δ) : Bearer κ δ :=
  { att with
    pendingReq := if req then att.pendingReq.map AttSendOp.answered else att.pendingReq
    pendingInd := if ind then att.pendingInd.map AttSendOp.answered else att.pendingInd }

section Muted

variable (req ind : Bool)

theorem wakeupWriter_muted (att : Bearer κ δ) :
    (att.muted req ind).wakeupWriter = att.wakeupWriter.muted req ind := by
  have hreq : (att.muted req ind).pendingReq.isSome = att.pendingReq.isSome := by
    cases req <;> simp only [muted, if_true, Bool.false_eq_true, if_false, Option.isSome_map]
  have hind : (att.muted req ind).pendingInd.isSome = att.pendingInd.isSome := by
    cases ind <;> simp only [muted, if_true, Bool.false_eq_true, if_false, Option.isSome_map]
  rw [wakeupWriter, wakeupWriter, hreq, hind]
  change (if att.writerActive then _ else if att.writeQueue.isEmpty ∧
    (att.pendingReq.isSome ∨ att.reqQueue.isEmpty) ∧
    (att.pendingInd.isSome ∨ att.indQueue.isEmpty) then _ else if ¬att.io then _ else _) = _
  split
  · rfl
  · split
    · rfl
    · split <;> rfl

theorem cancelPending_answered (op : Option (AttSendOp κ δ)) :
    cancelPending (op.map AttSendOp.answered) =
      ((cancelPending op).1, (cancelPending op).2.map AttSendOp.answered) := by
  cases op <;> rfl

theorem any_answered (op : Option (AttSendOp κ δ)) (id : BitVec 32) :
    (op.map AttSendOp.answered).any (·.id = id) = op.any (·.id = id) := by
  cases op <;> rfl

theorem btAttSend_muted (att : Bearer κ δ) (opcode : UInt8) (pdu : List UInt8)
    (callback : Option κ) (destroy : Option δ) (uninit : Uninit) :
    (att.muted req ind).btAttSend opcode pdu callback destroy uninit =
      Prod.map id (muted req ind) (att.btAttSend opcode pdu callback destroy uninit) := by
  have hcreate : (att.muted req ind).createAttSendOp opcode pdu callback destroy uninit =
      att.createAttSendOp opcode pdu callback destroy uninit := rfl
  rw [btAttSend, btAttSend, hcreate]
  change (if ¬att.io then _ else _) = _
  split
  · rfl
  · split
    · rfl
    · case h_2 events op _ =>
        refine Prod.ext rfl ?_
        refine Eq.trans (congrArg wakeupWriter ?_) (wakeupWriter_muted req ind _)
        rw [enqueue, enqueue]
        cases op.type <;> rfl

theorem btAttCancel_muted (att : Bearer κ δ) (op : BitVec 32) :
    (att.muted req ind).btAttCancel op = Prod.map id (muted req ind) (att.btAttCancel op) := by
  have hreq : (att.muted req ind).pendingReq.any (·.id = op) = att.pendingReq.any (·.id = op) := by
    cases req
    · rfl
    · exact any_answered att.pendingReq op
  have hind : (att.muted req ind).pendingInd.any (·.id = op) = att.pendingInd.any (·.id = op) := by
    cases ind
    · rfl
    · exact any_answered att.pendingInd op
  rw [btAttCancel, btAttCancel, hreq, hind]
  split
  · rfl
  · split
    · cases req
      · rfl
      · simp only [muted, if_true, cancelPending_answered, Prod.map, id]
    · split
      · cases ind
        · rfl
        · simp only [muted, if_true, cancelPending_answered, Prod.map, id]
      · have hreqs : (att.muted req ind).reqQueue = att.reqQueue := rfl
        have hinds : (att.muted req ind).indQueue = att.indQueue := rfl
        have hwrites : (att.muted req ind).writeQueue = att.writeQueue := rfl
        rw [hreqs, hinds, hwrites]
        rcases removeOp op att.reqQueue with _ | ⟨x, rest⟩
        · rcases removeOp op att.indQueue with _ | ⟨x, rest⟩
          · rcases removeOp op att.writeQueue with _ | ⟨x, rest⟩
            · rfl
            · exact Prod.ext rfl (wakeupWriter_muted req ind { att with writeQueue := rest })
          · exact Prod.ext rfl (wakeupWriter_muted req ind { att with indQueue := rest })
        · exact Prod.ext rfl (wakeupWriter_muted req ind { att with reqQueue := rest })

theorem btAttCancelAll_muted (att : Bearer κ δ) :
    (att.muted req ind).btAttCancelAll = Prod.map id (muted req ind) att.btAttCancelAll := by
  cases req <;> cases ind <;>
    simp only [btAttCancelAll, muted, if_true, Bool.false_eq_true, if_false,
      cancelPending_answered, Prod.map, id]

theorem btAttUnregisterDisconnect_muted (att : Bearer κ δ) (op : BitVec 32) :
    (att.muted req ind).btAttUnregisterDisconnect op =
      Prod.map id (muted req ind) (att.btAttUnregisterDisconnect op) := by
  have hlist : (att.muted req ind).disconnList = att.disconnList := rfl
  have hio : (att.muted req ind).io = att.io := rfl
  rw [btAttUnregisterDisconnect, btAttUnregisterDisconnect, hlist, hio]
  split
  · rfl
  · generalize List.find? _ att.disconnList = found
    cases found with
    | none => rfl
    | some disconn =>
        by_cases h : ¬att.io
        · simp only [if_pos h]
          rfl
        · simp only [if_neg h]
          rfl

/-- The calls that a callback makes do the same to a bearer whose pending
    operations are muted. -/
theorem perform_muted (att : Bearer κ δ) (call : AttCall κ δ) :
    (att.muted req ind).perform call = Prod.map id (muted req ind) (att.perform call) := by
  cases call with
  | send opcode pdu callback destroy uninit =>
      exact btAttSend_muted req ind att opcode pdu callback destroy uninit
  | cancel op => exact btAttCancel_muted req ind att op
  | cancelAll => exact btAttCancelAll_muted req ind att
  | unregisterDisconnect op => exact btAttUnregisterDisconnect_muted req ind att op
  | setMtu mtu =>
      rw [perform, perform, btAttSetMtu, btAttSetMtu]
      split <;> rfl
  | setSecurity level accepted =>
      rw [perform, perform, btAttSetSecurity, btAttSetSecurity]
      change ([], (if level < btAttSecurityAuto ∨ level > btAttSecurityHigh then _
        else if ¬att.ioOnL2cap then _ else _ : Bool × Bearer κ δ).2) = _
      split
      · rfl
      · split <;> rfl
  | setEncKeySize encSize => rfl
  | setLocalKey sign => rfl
  | setRemoteKey sign => rfl

theorem performAll_muted (att : Bearer κ δ) (calls : List (AttCall κ δ)) :
    (att.muted req ind).performAll calls = Prod.map id (muted req ind) (att.performAll calls) := by
  induction calls generalizing att with
  | nil => rfl
  | cons call calls ih =>
      have hrest := ih (att.perform call).2
      simp only [performAll, perform_muted, Prod.map, id] at hrest ⊢
      rw [hrest]

end Muted

end Bearer

namespace Endpoint

open Bearer

variable (U : UpperLayer ε σ κ δ) (env : ε) (w : Endpoint σ κ δ)
  {limbo : Multiset (AttSendOp κ δ)}

/-- A callback that is not the callback of an operation. -/
theorem upcall_path (call : Upcall κ) (h : BearerEvent.Neutral (.upcall call : BearerEvent κ δ)) :
    Moves Move (w.att.life limbo) (w.upcall U env call).1
      ((w.upcall U env call).2.att.life limbo) :=
  Moves.cons (Move.neutral _ _ h) (performAll_path _)

theorem answered_of_none {op : AttSendOp κ δ} (h : op.callback = none) : op.answered = op := by
  rw [AttSendOp.answered, ← h]

/-- The callback of an operation that the code holds in a variable. -/
theorem respond_path (op : AttSendOp κ δ) (opcode : UInt8) (pdu : List UInt8) :
    Moves Move (w.att.life (op ::ₘ limbo)) (w.respond U env op opcode pdu).1
      ((w.respond U env op opcode pdu).2.att.life (op.answered ::ₘ limbo)) := by
  rw [respond]
  split
  · case h_1 hnone =>
      rw [answered_of_none hnone]
      exact Moves.nil _
  · case h_2 callback hsome =>
      exact Moves.cons (Move.answer _ op limbo callback opcode pdu rfl hsome) (performAll_path _)

/-- An operation that was queued ends: its callback is called, and it is
    freed. -/
theorem discAttSendOp_path (op : AttSendOp κ δ) :
    Moves Move (w.att.life (op ::ₘ limbo)) (w.discAttSendOp U env op).1
      ((w.discAttSendOp U env op).2.att.life limbo) :=
  (respond_path U env w op _ _).trans (Moves.single (Move.free _ op.answered limbo rfl))

theorem discAll_path (ops : List (AttSendOp κ δ)) :
    Moves Move (w.att.life (↑ops + limbo)) (w.discAll U env ops).1
      ((w.discAll U env ops).2.att.life limbo) := by
  induction ops generalizing w with
  | nil =>
      rw [Multiset.coe_nil, zero_add]
      exact Moves.nil _
  | cons op ops ih =>
      rw [← Multiset.cons_coe, Multiset.cons_add]
      exact (discAttSendOp_path U env w op).trans (ih _)

/-- The pending request is freed. -/
theorem freeReq_path (att : Bearer κ δ) :
    Moves Move (att.life limbo) (att.pendingReq.toList.flatMap destroyAttSendOp)
      ({ att with pendingReq := none }.life limbo) := by
  rcases hpending : att.pendingReq with _ | op
  · rw [life, hpending]
    exact Moves.nil _
  · rw [Option.toList_some, List.flatMap_singleton]
    exact Moves.silent (Move.takePendingReq (att.life limbo) op hpending)
      (Moves.single (Move.free _ op limbo rfl))

theorem freeInd_path (att : Bearer κ δ) :
    Moves Move (att.life limbo) (att.pendingInd.toList.flatMap destroyAttSendOp)
      ({ att with pendingInd := none }.life limbo) := by
  rcases hpending : att.pendingInd with _ | op
  · rw [life, hpending]
    exact Moves.nil _
  · rw [Option.toList_some, List.flatMap_singleton]
    exact Moves.silent (Move.takePendingInd (att.life limbo) op hpending)
      (Moves.single (Move.free _ op limbo rfl))

/-- An answered operation is freed like any other. -/
theorem destroy_answered (op : Option (AttSendOp κ δ)) :
    (op.map AttSendOp.answered).toList.flatMap destroyAttSendOp =
      op.toList.flatMap destroyAttSendOp := by
  cases op <;> rfl

/-- The pending request ends. While its callback runs it is still pending. -/
theorem endReq_path (opcode : UInt8) (pdu : List UInt8) :
    Moves Move (w.att.life limbo) (w.endReq U env opcode pdu).1
      ((w.endReq U env opcode pdu).2.att.life limbo) := by
  rcases hpending : w.att.pendingReq with _ | op
  · simp only [endReq, hpending]
    exact Moves.nil _
  · rcases hcallback : op.callback with _ | callback
    · -- It has been cancelled, and there is no callback any more.
      simp only [endReq, respond, hpending, hcallback, List.nil_append]
      rw [← hpending]
      exact freeReq_path w.att
    · simp only [endReq, respond, hpending, hcallback]
      have hanswer := Move.answerReq (w.att.life limbo) op callback opcode pdu hpending hcallback
      have hmuted : { w.att.life limbo with pendingReq := some op.answered } =
          (w.att.muted true false).life limbo := by
        rw [muted, hpending]
        rfl
      rw [hmuted] at hanswer
      have hcalls : Moves Move ((w.att.muted true false).life limbo) _ _ := performAll_path
        (U.react env w.upper w.att (.response callback opcode pdu)).2
      rw [performAll_muted] at hcalls
      have hfree : Moves Move (life _ limbo) _ _ := freeReq_path ((w.att.performAll
        (U.react env w.upper w.att (.response callback opcode pdu)).2).2.muted true false)
      rw [muted, if_pos rfl, destroy_answered] at hfree
      exact (Moves.cons hanswer hcalls).trans hfree

/-- The pending indication ends. -/
theorem endInd_path (opcode : UInt8) (pdu : List UInt8) :
    Moves Move (w.att.life limbo) (w.endInd U env opcode pdu).1
      ((w.endInd U env opcode pdu).2.att.life limbo) := by
  rcases hpending : w.att.pendingInd with _ | op
  · simp only [endInd, hpending]
    exact Moves.nil _
  · rcases hcallback : op.callback with _ | callback
    · simp only [endInd, respond, hpending, hcallback, List.nil_append]
      rw [← hpending]
      exact freeInd_path w.att
    · simp only [endInd, respond, hpending, hcallback]
      have hanswer := Move.answerInd (w.att.life limbo) op callback opcode pdu hpending hcallback
      have hmuted : { w.att.life limbo with pendingInd := some op.answered } =
          (w.att.muted false true).life limbo := by
        rw [muted, hpending]
        rfl
      rw [hmuted] at hanswer
      have hcalls : Moves Move ((w.att.muted false true).life limbo) _ _ := performAll_path
        (U.react env w.upper w.att (.response callback opcode pdu)).2
      rw [performAll_muted] at hcalls
      have hfree : Moves Move (life _ limbo) _ _ := freeInd_path ((w.att.performAll
        (U.react env w.upper w.att (.response callback opcode pdu)).2).2.muted false true)
      rw [muted, if_pos rfl, destroy_answered] at hfree
      exact (Moves.cons hanswer hcalls).trans hfree

/-- Where `pick_next_send_op` finds an operation. -/
theorem pick_cases {att att' : Bearer κ δ} {op : AttSendOp κ δ}
    (h : att.pickNextSendOp = some (op, att')) :
    (∃ r, att.writeQueue = op :: r ∧ att' = { att with writeQueue := r }) ∨
      (att.pendingReq = none ∧ ∃ r, att.reqQueue = op :: r ∧ att' = { att with reqQueue := r }) ∨
      (att.pendingInd = none ∧
        ∃ r, att.indQueue = op :: r ∧ att' = { att with indQueue := r }) := by
  rw [pickNextSendOp] at h
  split at h
  · case h_1 x r hwrite =>
      rw [Option.some.injEq, Prod.mk.injEq] at h
      exact Or.inl ⟨r, h.1 ▸ hwrite, h.2.symm⟩
  · split at h
    · case h_1 x r hnone hreq =>
        rw [Option.some.injEq, Prod.mk.injEq] at h
        exact Or.inr (Or.inl ⟨hnone, r, h.1 ▸ hreq, h.2.symm⟩)
    · split at h
      · case h_1 x r hnone hind =>
          rw [Option.some.injEq, Prod.mk.injEq] at h
          exact Or.inr (Or.inr ⟨hnone, r, h.1 ▸ hind, h.2.symm⟩)
      · exact absurd h.symm (Option.some_ne_none _)

/-- The operation that is picked can be taken out of its queue. -/
theorem pick_path {att att' : Bearer κ δ} {op : AttSendOp κ δ}
    (h : att.pickNextSendOp = some (op, att')) :
    Moves Move (att.life limbo) [] (att'.life (op ::ₘ limbo)) := by
  rcases pick_cases h with ⟨r, hqueue, rfl⟩ | ⟨_, r, hqueue, rfl⟩ | ⟨_, r, hqueue, rfl⟩
  · exact Moves.single (Move.takeWrite (att.life limbo) [] r op hqueue)
  · exact Moves.single (Move.takeReq (att.life limbo) [] r op hqueue)
  · exact Moves.single (Move.takeInd (att.life limbo) [] r op hqueue)

/-- The socket can be written to. -/
theorem canWriteData_path (htyped : (w.att.life 0).Typed) (ok : Bool) :
    Moves Move (w.att.life 0) (w.canWriteData U env ok).1
      ((w.canWriteData U env ok).2.att.life 0) := by
  rw [canWriteData]
  split
  · exact Moves.nil _
  · case h_2 op att hpick =>
      split
      · -- The packet cannot be sent, and its operation ends.
        exact (pick_path hpick).trans ((respond_path U env { w with att } op _ _).trans
          (Moves.single (Move.free _ op.answered 0 rfl)))
      · rcases pick_cases hpick with ⟨r, hqueue, rfl⟩ | ⟨hnone, r, hqueue, rfl⟩ |
          ⟨hnone, r, hqueue, rfl⟩
        · -- A packet without an answer is freed at once.
          have htype := htyped.writeQueue op (by
            rw [life, hqueue]
            exact List.mem_cons_self)
          have hsend := Moves.single (Move.sendWrite (w.att.life 0) op r rfl hqueue)
          have hpath := hsend.trans (Moves.single (Move.free _ op 0 rfl))
          split
          · case h_1 hreq => exact absurd (Or.inl hreq) htype
          · case h_2 hind => exact absurd (Or.inr hind) htype
          · exact hpath
          · exact hpath
        · have htype : op.type = .req := htyped.reqQueue op (by
            rw [life, hqueue]
            exact List.mem_cons_self)
          have hsend := Moves.single (Move.sendReq (w.att.life 0) op r rfl hnone hqueue)
          rw [htype] at hsend ⊢
          exact hsend
        · have htype : op.type = .ind := htyped.indQueue op (by
            rw [life, hqueue]
            exact List.mem_cons_self)
          have hsend := Moves.single (Move.sendInd (w.att.life 0) op r rfl hnone hqueue)
          rw [htype] at hsend ⊢
          exact hsend

/-- An operation that the code holds in a variable times out. -/
theorem expire_path (op : AttSendOp κ δ) (att : Bearer κ δ) :
    Moves Move (att.life (op ::ₘ limbo)) (w.expire U env op att).1
      ((w.expire U env op att).2.att.life limbo) := by
  have hcall : ∀ w' : Endpoint σ κ δ, Moves Move (w'.att.life (op ::ₘ limbo))
      (destroyAttSendOp op ++ if w'.att.io then [.shutdown] else []) (w'.att.life limbo) := by
    intro w'
    refine (Moves.single (Move.free _ op limbo rfl)).trans ?_
    split
    · exact Moves.single (Move.neutral _ _ trivial)
    · exact Moves.nil _
  rcases hcallback : att.timeoutCallback with _ | callback
  · simp only [expire, hcallback, List.nil_append]
    exact hcall { w with att }
  · simp only [expire, hcallback, List.append_assoc]
    exact (upcall_path U env { w with att } (.timeout callback op.id op.opcode) trivial).trans
      (hcall _)

theorem timeoutCb_path (id : BitVec 32) :
    Moves Move (w.att.life limbo) (w.timeoutCb U env id).1
      ((w.timeoutCb U env id).2.att.life limbo) := by
  rw [timeoutCb]
  split
  · case h_1 op hfilter =>
      exact Moves.silent (Move.takePendingReq (w.att.life limbo) op
        (Option.filter_eq_some_iff.mp hfilter).1)
        (expire_path U env w op { w.att with pendingReq := none })
  · split
    · case h_1 op hfilter =>
        exact Moves.silent (Move.takePendingInd (w.att.life limbo) op
        (Option.filter_eq_some_iff.mp hfilter).1)
          (expire_path U env w op { w.att with pendingInd := none })
    · exact Moves.nil _

theorem finishRsp_path (rspOpcode : UInt8) (rspPdu : List UInt8) :
    Moves Move (w.att.life limbo) (w.finishRsp U env rspOpcode rspPdu).1
      ((w.finishRsp U env rspOpcode rspPdu).2.att.life limbo) := by
  rw [finishRsp, life_wakeupWriter]
  exact endReq_path U env w rspOpcode rspPdu

theorem changeSecurity_level (att : Bearer κ δ) (link : Link) (ecode : UInt8) :
    ∃ level, (att.changeSecurity link ecode).2 = { att with ioSecLevel := level } := by
  rw [changeSecurity]
  split
  · exact ⟨att.ioSecLevel, rfl⟩
  · simp only []
    split
    · exact ⟨att.ioSecLevel, rfl⟩
    · case h_2 level _ =>
        rw [btAttSetSecurity]
        split
        · exact ⟨att.ioSecLevel, rfl⟩
        · split
          · exact ⟨level, rfl⟩
          · exact ⟨att.ioSecLevel, rfl⟩

/-- What `handle_error_rsp` does to the bearer: the request goes back to its
    queue, or the security level is all that has changed. -/
theorem handleErrorRsp_cases (att : Bearer κ δ) (op : AttSendOp κ δ) (link : Link)
    (pdu : List UInt8) : ∃ level, (handleErrorRsp att op link pdu).2 =
      ({ att with ioSecLevel := level }, false) ∨ (handleErrorRsp att op link pdu).2 =
      ({ att with
        ioSecLevel := level
        pendingReq := none
        reqQueue := { op with timeoutId := false } :: att.reqQueue }, true) := by
  unfold handleErrorRsp
  split
  · case h_1 opcode _ _ ecode =>
      rcases changeSecurity_level att link ecode with ⟨level, hlevel⟩
      rcases hchange : att.changeSecurity link ecode with ⟨_ | _, att'⟩
      · rw [hchange] at hlevel
        exact ⟨level, Or.inl (congrArg (·, false) hlevel)⟩
      · rw [hchange] at hlevel
        rw [show att' = _ from hlevel]
        exact ⟨level, Or.inr rfl⟩
  · exact ⟨att.ioSecLevel, Or.inl rfl⟩

/-- A response is received. If the request is retried, the response is a part
    of that. -/
theorem handleRsp_path (link : Link) (opcode : UInt8) (pdu : List UInt8) (e : BearerEvent κ δ)
    (he : e.isResponse) (hneutral : e.Neutral) :
    Moves Move (w.att.life limbo) (e :: (w.handleRsp U env link opcode pdu).1)
      ((w.handleRsp U env link opcode pdu).2.att.life limbo) := by
  have hreceived : Moves Move (w.att.life limbo) [e] (w.att.life limbo) :=
    Moves.single (Move.neutral _ _ hneutral)
  rcases hpending : w.att.pendingReq with _ | op
  · simp only [handleRsp, hpending]
    exact hreceived.trans (Moves.single (Move.neutral _ _ trivial))
  · simp only [handleRsp, hpending]
    split
    · rcases handleErrorRsp_cases w.att op link pdu with ⟨level, hfail | hretry⟩
      · have hpath := fun rspOpcode rspPdu => hreceived.trans (finishRsp_path U env
          { w with att := { w.att with ioSecLevel := level } } rspOpcode rspPdu)
        rcases hresult : handleErrorRsp w.att op link pdu with ⟨reqOpcode, att, _ | _⟩
        · rw [hresult, Prod.mk.injEq] at hfail
          simp only [hfail.1]
          split
          · exact hpath _ _
          · exact hpath _ _
        · rw [hresult] at hfail
          exact absurd (congrArg Prod.snd hfail) Bool.noConfusion
      · -- The response is used up by the retry.
        rcases hresult : handleErrorRsp w.att op link pdu with ⟨reqOpcode, att, _ | _⟩
        · rw [hresult] at hretry
          exact absurd (congrArg Prod.snd hretry) Bool.noConfusion
        · rw [hresult, Prod.mk.injEq] at hretry
          simp only [hretry.1, life_wakeupWriter]
          exact Moves.single (Move.retry (w.att.life limbo) op e he hpending)
    · split
      · exact hreceived.trans (finishRsp_path U env w _ _)
      · exact hreceived.trans (finishRsp_path U env w _ _)

theorem handleConf_path (pdu : List UInt8) :
    Moves Move (w.att.life limbo) (w.handleConf U env pdu).1
      ((w.handleConf U env pdu).2.att.life limbo) := by
  rw [handleConf]
  split
  · exact Moves.single (Move.neutral _ _ trivial)
  · rw [life_wakeupWriter]
    exact endInd_path U env w _ _

theorem notifyAll_path (opcode : UInt8) (pdu : List UInt8) (list : List (AttNotify κ δ)) :
    Moves Move (w.att.life limbo) (w.notifyAll U env opcode pdu list).1
      ((w.notifyAll U env opcode pdu list).2.att.life limbo) := by
  induction list generalizing w with
  | nil => exact Moves.nil _
  | cons notify list ih =>
      rw [notifyAll]
      split
      · exact ih w
      · exact (upcall_path U env w (.notify notify.callback opcode pdu) trivial).trans (ih _)

theorem afterNotify_path (opcode : UInt8) (found : Bool) :
    Moves Move (w.att.life limbo) (w.afterNotify opcode found).1
      ((w.afterNotify opcode found).2.att.life limbo) := by
  rw [afterNotify]
  split
  · exact btAttSend_path _ _ _ _ _
  · exact Moves.nil _

theorem handleNotify_path (opcode : UInt8) (pdu : List UInt8) :
    Moves Move (w.att.life limbo) (w.handleNotify U env opcode pdu).1
      ((w.handleNotify U env opcode pdu).2.att.life limbo) := by
  rw [handleNotify]
  simp only []
  split
  · exact Moves.nil _
  · exact (notifyAll_path U env w _ _ _).trans (afterNotify_path _ _ _)

theorem canReadData_path (link : Link) (packet : List UInt8) :
    Moves Move (w.att.life limbo) (w.canReadData U env link packet).1
      ((w.canReadData U env link packet).2.att.life limbo) := by
  rw [canReadData]
  simp only []
  split
  · exact Moves.single (Move.neutral _ _ trivial)
  · case h_2 opcode pdu hbuf =>
      rw [hbuf]
      have hreceived : Moves Move (w.att.life limbo) [.received (opcode :: pdu)]
          (w.att.life limbo) := Moves.single (Move.neutral _ _ trivial)
      cases htype : getOpType opcode with
      | rsp => exact handleRsp_path U env w link opcode pdu _ htype trivial
      | conf => exact hreceived.trans (handleConf_path U env w pdu)
      | req =>
          simp only []
          split
          · exact hreceived.trans (Moves.single (Move.neutral _ _ trivial))
          · exact hreceived.trans (handleNotify_path U env
              { w with att := { w.att with inReq := true } } opcode pdu)
      | _ => exact hreceived.trans (handleNotify_path U env w opcode pdu)

theorem disconnHandlers_path (err : ℤ) (remaining : ℕ) :
    Moves Move (w.att.life limbo) (w.disconnHandlers U env err remaining).1
      ((w.disconnHandlers U env err remaining).2.att.life limbo) := by
  induction remaining generalizing w with
  | zero => exact Moves.nil _
  | succ remaining ih =>
      rw [disconnHandlers]
      refine Moves.trans ?_ (ih _)
      split
      · exact Moves.nil _
      · split
        · exact Moves.nil _
        · split
          · exact Moves.nil _
          · case h_2 callback _ => exact upcall_path U env w (.disconnect callback err) trivial

/-- The link is gone: whatever is queued or pending ends, in the order of the
    queues. -/
theorem disconnectCb_path (err : ℤ) :
    Moves Move (w.att.life 0) (w.disconnectCb U env err).1
      ((w.disconnectCb U env err).2.att.life 0) := by
  have hreqs : ∀ w : Endpoint σ κ δ, Moves Move (w.att.life 0)
      (w.discQueue U env Bearer.reqQueue fun att => { att with reqQueue := [] }).1
      ((w.discQueue U env Bearer.reqQueue
        fun att => { att with reqQueue := [] }).2.att.life 0) := by
    intro w
    have htake := takeReqs_path (w.att.life 0) w.att.reqQueue rfl
    exact htake.trans (discAll_path U env { w with att := { w.att with reqQueue := [] } }
      w.att.reqQueue)
  have hinds : ∀ w : Endpoint σ κ δ, Moves Move (w.att.life 0)
      (w.discQueue U env Bearer.indQueue fun att => { att with indQueue := [] }).1
      ((w.discQueue U env Bearer.indQueue
        fun att => { att with indQueue := [] }).2.att.life 0) := by
    intro w
    have htake := takeInds_path (w.att.life 0) w.att.indQueue rfl
    exact htake.trans (discAll_path U env { w with att := { w.att with indQueue := [] } }
      w.att.indQueue)
  have hwrites : ∀ w : Endpoint σ κ δ, Moves Move (w.att.life 0)
      (w.discQueue U env Bearer.writeQueue fun att => { att with writeQueue := [] }).1
      ((w.discQueue U env Bearer.writeQueue fun att =>
        { att with writeQueue := [] }).2.att.life 0) := by
    intro w
    have htake := takeWrites_path (w.att.life 0) w.att.writeQueue rfl
    exact htake.trans (discAll_path U env { w with att := { w.att with writeQueue := [] } }
      w.att.writeQueue)
  rw [disconnectCb]
  exact ((((((hreqs { w with att := { w.att with io := false, writerActive := false } }).trans
    (hinds _)).trans (hwrites _)).trans (endReq_path U env _ _ _)).trans
    (endInd_path U env _ _ _)).trans (disconnHandlers_path U env _ err _)).trans
    btAttUnregisterAll_path

end Endpoint

/-- Nothing is left. -/
def Life.empty : Life κ δ := ⟨[], none, [], none, [], 0, 0⟩

open Bearer Endpoint

theorem btAttUnref_path (att : Bearer κ δ) : Moves Move (att.life 0) att.btAttUnref Life.empty := by
  -- The pending operations go after the queues, each freed at once.
  have hpending (att₂ : Bearer κ δ) : Moves Move (att₂.life 0)
      ((att₂.pendingReq.toList ++ att₂.pendingInd.toList).flatMap destroyAttSendOp)
      ({ att₂ with pendingReq := none, pendingInd := none }.life 0) := by
    rw [List.flatMap_append]
    exact (freeReq_path att₂).trans (freeInd_path _)
  have hlists : Moves Move (att.life 0) att.btAttUnregisterAll.1
      (att.btAttUnregisterAll.2.life 0) := btAttUnregisterAll_path
  have hqueues : Moves Move (att.btAttUnregisterAll.2.life 0)
      att.btAttUnregisterAll.2.btAttCancelAll.1
      (att.btAttUnregisterAll.2.btAttCancelAll.2.life 0) := btAttCancelAll_path
  have htimeout := Moves.single (Move.release ({ att.btAttUnregisterAll.2.btAttCancelAll.2 with
    pendingReq := none, pendingInd := none }.life 0) att.timeoutDestroy 0 (add_comm _ _))
  exact ((hlists.trans hqueues).trans (hpending _)).trans htimeout

variable {U : UpperLayer ε σ κ δ}

/-- A step after which the bearer goes on is a path. -/
theorem step_path {w w' : Endpoint σ κ δ} (htyped : (w.att.life 0).Typed)
    (i : BearerInput ε κ δ) (h : ((bearerMachine U).step w i).2 = some w') :
    Moves Move (w.att.life 0) ((bearerMachine U).step w i).1 (w'.att.life 0) := by
  cases i with
  | readable env link packet =>
      simp only [bearerMachine] at h ⊢
      split at h
      · rw [if_pos ‹_›, ← Option.some.inj h]
        exact canReadData_path U env w link packet
      · rw [if_neg ‹_›, ← Option.some.inj h]
        exact Moves.nil _
  | error =>
      rw [← Option.some.inj h]
      exact Moves.nil _
  | writable env ok =>
      simp only [bearerMachine] at h ⊢
      split at h
      · rw [if_pos ‹_›, ← Option.some.inj h]
        exact canWriteData_path U env w htyped ok
      · rw [if_neg ‹_›, ← Option.some.inj h]
        exact Moves.nil _
  | timeout env timer =>
      rw [← Option.some.inj h]
      exact timeoutCb_path U env w timer
  | hangup env err =>
      simp only [bearerMachine] at h ⊢
      split at h
      · rw [if_pos ‹_›, ← Option.some.inj h]
        exact disconnectCb_path U env w err
      · rw [if_neg ‹_›, ← Option.some.inj h]
        exact Moves.nil _
  | call call =>
      rw [← Option.some.inj h]
      exact perform_path call
  | register opcode callback destroy =>
      rw [← Option.some.inj h]
      exact btAttRegister_path opcode callback destroy
  | registerDisconnect callback destroy =>
      rw [← Option.some.inj h]
      exact btAttRegisterDisconnect_path callback destroy
  | unregister handler =>
      rw [← Option.some.inj h]
      exact btAttUnregister_path handler
  | unregisterAll =>
      rw [← Option.some.inj h]
      exact btAttUnregisterAll_path
  | setTimeoutCb callback destroy =>
      rw [← Option.some.inj h]
      exact btAttSetTimeoutCb_path callback destroy
  | unref => exact absurd h.symm (Option.some_ne_none _)

/-- Only the last reference ends a run. -/
theorem step_stop {w : Endpoint σ κ δ} {i : BearerInput ε κ δ}
    (h : ((bearerMachine U).step w i).2 = none) : i = .unref := by
  cases i with
  | unref => rfl
  | readable env link packet =>
      simp only [bearerMachine] at h
      split at h <;> exact absurd h (Option.some_ne_none _)
  | writable env ok =>
      simp only [bearerMachine] at h
      split at h <;> exact absurd h (Option.some_ne_none _)
  | hangup env err =>
      simp only [bearerMachine] at h
      split at h <;> exact absurd h (Option.some_ne_none _)
  | _ => exact absurd h (Option.some_ne_none _)

/-- The step that stops it ends with nothing left. -/
theorem stop_path {w : Endpoint σ κ δ} (i : BearerInput ε κ δ)
    (h : ((bearerMachine U).step w i).2 = none) :
    Moves Move (w.att.life 0) ((bearerMachine U).step w i).1 Life.empty := by
  rw [step_stop h]
  exact btAttUnref_path w.att

/-- A run of the bearer is a path. -/
theorem bearer_path {w : Endpoint σ κ δ} (htyped : (w.att.life 0).Typed)
    (is : List (BearerInput ε κ δ)) :
    Moves Move (w.att.life 0) ((bearerMachine U).run w is).1
      (((bearerMachine U).run w is).2.elim Life.empty fun w => w.att.life 0) :=
  StepMachine.run_path (fun w : Endpoint σ κ δ => w.att.life 0) Life.empty Life.Typed
    (fun _ _ _ hL h => h.typed hL) (fun _ i _ hL h => step_path hL i h)
    (fun _ i _ h => stop_path i h) htyped is

end Wallclock
