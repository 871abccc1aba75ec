import Wallclock.Theory.Calls
import Wallclock.Theory.Transport

/-!
# The End of a Link

What a disconnect does to a bearer, and what is left to happen after it.

`disconnect_cb` gives up the link first and then ends every operation. The
callbacks it calls may call the transport again, but without a link nothing is
accepted, so a queue that has been emptied stays empty: a `Law` says that a
bearer `Withers`. In the end it is `Closed`, and a closed bearer stays closed
and does nothing more than to swap its timeout function.

The operations end in a fixed order, first those in the queues. If no callback
cancels another operation, which the law `Frozen` is about, every callback is
called then, in that order.

## Main definitions

* `Bearer.Withers`, `Bearer.Frozen`: What a bearer without a link keeps.
* `Bearer.Closed`: A bearer whose link is gone.
* `BearerEvent.Late`: What can happen on a closed bearer.
* `AttCall.Spares`: A call that cancels nothing.

## Theorems

* `isSome_none`, `Less.withers`, `withers_enqueue`, `withers_law`: Calls and
  callbacks let a bearer wither.
* `Withers.emptied`, `endReq_emptied`, `endInd_emptied`: Its queues are emptied.
* `disconnectCb_closed`: A disconnect closes it.
* `closed_unregisterAll`, `late_destroyEvents`, `closed_perform`, `closed_step`,
  `closed_run`: Nothing happens on a closed bearer.
* `hangup_final`, `hangup_final_reads`: A disconnect is final.
* `Bearer.Frozen.refl`, `Bearer.Frozen.holds`, `frozen_law`: Without cancelling,
  calls and callbacks freeze a bearer.
* `asCall_idle`, `performAll_calls`, `free_calls`, `disconnHandlers_calls`,
  `unregisterAll_calls`: Events that call no callback.
* `respond_calls`, `discAll_calls`, `discQueue_calls`: The callbacks of queued
  operations.
* `endReq_calls`, `endInd_calls`: The callbacks of pending operations.
* `hangup_answers`, `hangup_answers_read`: Every callback is called, in order.
-/

namespace Wallclock

variable {ε σ κ δ : Type*}

namespace Bearer

/-- The link stays as it is, and a bearer without a link gets no operation. -/
structure Withers (att : Bearer κ δ) (_ : List (BearerEvent κ δ)) (att' : Bearer κ δ) : Prop where
  io : att'.io = att.io
  reqQueue : att.io = false → att'.reqQueue.Sublist att.reqQueue
  indQueue : att.io = false → att'.indQueue.Sublist att.indQueue
  writeQueue : att.io = false → att'.writeQueue.Sublist att.writeQueue
  pendingReq : att.pendingReq = none → att'.pendingReq = none
  pendingInd : att.pendingInd = none → att'.pendingInd = none

theorem isSome_none {α : Type*} {x y : Option α} (h : x.isSome = y.isSome) (hy : y = none) :
    x = none := by
  rw [hy] at h
  cases x with
  | none => rfl
  | some _ => exact absurd h.symm Bool.false_ne_true

theorem Less.withers {att att' : Bearer κ δ} (h : att.Less att') (es : List (BearerEvent κ δ)) :
    Withers att es att' :=
  ⟨h.io, fun _ => h.reqQueue, fun _ => h.indQueue, fun _ => h.writeQueue,
    isSome_none h.pendingReq, isSome_none h.pendingInd⟩

/-- What is enqueued needs a link, and leaves it. -/
theorem withers_enqueue {att : Bearer κ δ} {op : AttSendOp κ δ} (h : att.Accepts op)
    (id : BitVec 32) (es : List (BearerEvent κ δ)) :
    Withers att es ({ att with nextSendId := id }.enqueue op).wakeupWriter := by
  have hsame : ∀ att' : Bearer κ δ, att'.wakeupWriter.io = att'.io ∧
      att'.wakeupWriter.pendingReq = att'.pendingReq ∧
      att'.wakeupWriter.pendingInd = att'.pendingInd := by
    intro att'
    rcases wakeupWriter_cases att' with heq | ⟨_, heq⟩ <;> rw [heq] <;> exact ⟨rfl, rfl, rfl⟩
  have hdead (hio : att.io = false) : False := by
    rw [h.io] at hio
    exact absurd hio.symm Bool.false_ne_true
  refine ⟨?_, fun hio => (hdead hio).elim, fun hio => (hdead hio).elim,
    fun hio => (hdead hio).elim, fun hnone => ?_, fun hnone => ?_⟩
  · rw [(hsame _).1, enqueue]
    cases op.type <;> rfl
  · rw [(hsame _).2.1, enqueue]
    cases op.type <;> exact hnone
  · rw [(hsame _).2.2, enqueue]
    cases op.type <;> exact hnone

/-- Calls and callbacks let a bearer wither. -/
theorem withers_law : Law (fun _ => True) (@Withers κ δ) where
  nil att := (Less.refl att).withers []
  trans {a b _ _ _} h h' := by
    refine ⟨h'.io.trans h.io, fun hio => ?_, fun hio => ?_, fun hio => ?_,
      fun hnone => h'.pendingReq (h.pendingReq hnone),
      fun hnone => h'.pendingInd (h.pendingInd hnone)⟩
    · exact (h'.reqQueue (h.io.trans hio)).trans (h.reqQueue hio)
    · exact (h'.indQueue (h.io.trans hio)).trans (h.indQueue hio)
    · exact (h'.writeQueue (h.io.trans hio)).trans (h.writeQueue hio)
  perform att call _ := by
    generalize hes : (att.perform call).1 = es, hatt' : (att.perform call).2 = att'
    have heffect := perform_effect att call
    rw [hes, hatt'] at heffect
    cases heffect with
    | accepts es op hes h => exact withers_enqueue h _ _
    | less _ _ _ hless _ => exact hless.withers es
  call att call := (Less.refl att).withers _
  free att op := (Less.refl att).withers _

/-- A bearer without a link that has no operations in the places named. -/
structure Emptied (req ind write pendingReq pendingInd : Bool) (att : Bearer κ δ) : Prop where
  io : att.io = false
  reqQueue : req = true → att.reqQueue = []
  indQueue : ind = true → att.indQueue = []
  writeQueue : write = true → att.writeQueue = []
  pendingReq : pendingReq = true → att.pendingReq = none
  pendingInd : pendingInd = true → att.pendingInd = none

/-- What is empty stays empty. -/
theorem Withers.emptied {att att' : Bearer κ δ} {es : List (BearerEvent κ δ)}
    {req ind write pendingReq pendingInd : Bool} (h : Withers att es att')
    (hatt : att.Emptied req ind write pendingReq pendingInd) :
    att'.Emptied req ind write pendingReq pendingInd := by
  refine ⟨h.io.trans hatt.io, fun hb => ?_, fun hb => ?_, fun hb => ?_,
    fun hb => h.pendingReq (hatt.pendingReq hb), fun hb => h.pendingInd (hatt.pendingInd hb)⟩
  · exact List.sublist_nil.mp (hatt.reqQueue hb ▸ h.reqQueue hatt.io)
  · exact List.sublist_nil.mp (hatt.indQueue hb ▸ h.indQueue hatt.io)
  · exact List.sublist_nil.mp (hatt.writeQueue hb ▸ h.writeQueue hatt.io)

/-- A bearer whose link is gone, and with it everything that needed the link. -/
structure Closed (att : Bearer κ δ) : Prop where
  io : att.io = false
  reqQueue : att.reqQueue = []
  indQueue : att.indQueue = []
  writeQueue : att.writeQueue = []
  pendingReq : att.pendingReq = none
  pendingInd : att.pendingInd = none
  notifyList : att.notifyList = []
  disconnList : att.disconnList = []

end Bearer

open Bearer

/-- What is left goes with the handlers. -/
theorem closed_unregisterAll {att : Bearer κ δ} (h : att.Emptied true true true true true) :
    att.btAttUnregisterAll.2.Closed :=
  ⟨h.io, h.reqQueue rfl, h.indQueue rfl, h.writeQueue rfl, h.pendingReq rfl, h.pendingInd rfl,
    rfl, rfl⟩

section Closing

variable (U : UpperLayer ε σ κ δ) (env : ε)

/-- The pending operations end in turn. -/
theorem endReq_emptied {w : Endpoint σ κ δ} (opcode : UInt8) (pdu : List UInt8)
    (h : w.att.Emptied true true true false false) :
    (w.endReq U env opcode pdu).2.att.Emptied true true true true false := by
  rw [Endpoint.endReq]
  split
  · case h_1 hnone => exact { h with pendingReq := fun _ => hnone }
  · case h_2 op _ =>
      have hrest := (withers_law.respond (calls_any U) env w op opcode pdu).emptied h
      exact { hrest with pendingReq := fun _ => rfl }

theorem endInd_emptied {w : Endpoint σ κ δ} (opcode : UInt8) (pdu : List UInt8)
    (h : w.att.Emptied true true true true false) :
    (w.endInd U env opcode pdu).2.att.Emptied true true true true true := by
  rw [Endpoint.endInd]
  split
  · case h_1 hnone => exact { h with pendingInd := fun _ => hnone }
  · case h_2 op _ =>
      have hrest := (withers_law.respond (calls_any U) env w op opcode pdu).emptied h
      exact { hrest with pendingInd := fun _ => rfl }

/-- A disconnect closes the bearer. -/
theorem disconnectCb_closed (w : Endpoint σ κ δ) (err : ℤ) :
    (w.disconnectCb U env err).2.att.Closed := by
  have hU := calls_any U
  have hstart : ({ w.att with io := false, writerActive := false } : Bearer κ δ).Emptied
      false false false false false := by
    refine ⟨rfl, ?_, ?_, ?_, ?_, ?_⟩ <;> exact fun h => absurd h Bool.false_ne_true
  -- Each queue is emptied before its operations end.
  have hreqs (w : Endpoint σ κ δ) (h : w.att.Emptied false false false false false) :
      (w.discQueue U env reqQueue fun att => { att with reqQueue := [] }).2.att.Emptied
        true false false false false :=
    (withers_law.discAll hU env _ _).emptied { h with reqQueue := fun _ => rfl }
  have hinds (w : Endpoint σ κ δ) (h : w.att.Emptied true false false false false) :
      (w.discQueue U env indQueue fun att => { att with indQueue := [] }).2.att.Emptied
        true true false false false :=
    (withers_law.discAll hU env _ _).emptied { h with indQueue := fun _ => rfl }
  have hwrites (w : Endpoint σ κ δ) (h : w.att.Emptied true true false false false) :
      (w.discQueue U env writeQueue fun att => { att with writeQueue := [] }).2.att.Emptied
        true true true false false :=
    (withers_law.discAll hU env _ _).emptied { h with writeQueue := fun _ => rfl }
  have hhandlers (w : Endpoint σ κ δ) (h : w.att.Emptied true true true true true) :
      (w.disconnHandlers U env err w.att.disconnList.length).2.att.Emptied
        true true true true true :=
    (withers_law.disconnHandlers hU env err _ w).emptied h
  rw [Endpoint.disconnectCb]
  exact closed_unregisterAll (hhandlers _ (endInd_emptied U env (UInt8.ofNat btAttOpErrorRsp) []
    (endReq_emptied U env (UInt8.ofNat btAttOpErrorRsp) []
      (hwrites _ (hinds _ (hreqs _ hstart))))))

/-- What can still happen on a closed bearer. -/
def BearerEvent.Late : BearerEvent κ δ → Prop
  | .registered _ => True
  | .destroyed _ => True
  | _ => False

theorem late_destroyEvents (destroy : Option δ) :
    ∀ e ∈ (destroyEvents destroy : List (BearerEvent κ δ)), e.Late := by
  intro e he
  rcases List.mem_map.mp he with ⟨d, _, rfl⟩
  trivial

/-- A call on a closed bearer does nothing to it. -/
theorem closed_perform {att : Bearer κ δ} (h : att.Closed) (call : AttCall κ δ) :
    (att.perform call).1 = [] ∧ (att.perform call).2.Closed := by
  have hdead : ¬att.io = true := fun hio => absurd (h.io.symm.trans hio) Bool.false_ne_true
  cases call with
  | send opcode pdu callback destroy =>
      rw [perform, Bearer.btAttSend, if_pos hdead]
      exact ⟨rfl, h⟩
  | cancel id =>
      rw [perform, Bearer.btAttCancel, h.pendingReq, h.pendingInd, h.reqQueue, h.indQueue,
        h.writeQueue]
      split
      · exact ⟨rfl, h⟩
      · exact ⟨rfl, h⟩
  | cancelAll =>
      rw [perform, Bearer.btAttCancelAll, h.pendingReq, h.pendingInd, h.reqQueue, h.indQueue,
        h.writeQueue]
      exact ⟨rfl, h.io, rfl, rfl, rfl, rfl, rfl, h.notifyList, h.disconnList⟩
  | unregisterDisconnect id =>
      rw [perform, Bearer.btAttUnregisterDisconnect, h.disconnList]
      split
      · exact ⟨rfl, h⟩
      · exact ⟨rfl, h⟩
  | setMtu mtu =>
      rw [perform, Bearer.btAttSetMtu]
      split
      · exact ⟨rfl, h⟩
      · exact ⟨rfl, { h with }⟩
  | setSecurity level accepted =>
      rw [perform, Bearer.btAttSetSecurity]
      split
      · exact ⟨rfl, h⟩
      · split
        · exact ⟨rfl, { h with }⟩
        · exact ⟨rfl, h⟩
  | setEncKeySize encSize => exact ⟨rfl, { h with }⟩
  | setLocalKey sign => exact ⟨rfl, { h with }⟩
  | setRemoteKey sign => exact ⟨rfl, { h with }⟩

/-- A step on a closed bearer swaps its timeout function at most. -/
theorem closed_step {w : Endpoint σ κ δ} (h : w.att.Closed) (i : BearerInput ε κ δ) :
    (∀ e ∈ ((bearerMachine U).step w i).1, e.Late) ∧
      ∀ w', ((bearerMachine U).step w i).2 = some w' → w'.att.Closed := by
  have hdead : ¬w.att.io = true := fun hio => absurd (h.io.symm.trans hio) Bool.false_ne_true
  have hnone : ∀ e ∈ ([] : List (BearerEvent κ δ)), e.Late := fun e he =>
    absurd he List.not_mem_nil
  have hsame {w' : Endpoint σ κ δ} (hw : some w = some w') : w'.att.Closed :=
    Option.some.inj hw ▸ h
  cases i with
  | readable env link packet =>
      simp only [bearerMachine, hdead]
      exact ⟨hnone, fun _ hw => hsame hw⟩
  | error => exact ⟨hnone, fun _ hw => Option.some.inj hw ▸ { h with }⟩
  | writable env ok =>
      simp only [bearerMachine, hdead]
      exact ⟨hnone, fun _ hw => hsame hw⟩
  | timeout env timer =>
      simp only [bearerMachine, Endpoint.timeoutCb, h.pendingReq, h.pendingInd, Option.filter_none]
      exact ⟨hnone, fun _ hw => hsame hw⟩
  | hangup env err =>
      simp only [bearerMachine, hdead]
      exact ⟨hnone, fun _ hw => hsame hw⟩
  | call call =>
      have hcall := closed_perform h call
      refine ⟨?_, fun _ hw => Option.some.inj hw ▸ hcall.2⟩
      exact hcall.1.symm ▸ hnone
  | register opcode callback destroy =>
      simp only [bearerMachine, Bearer.btAttRegister, if_pos hdead]
      exact ⟨hnone, fun _ hw => hsame hw⟩
  | registerDisconnect callback destroy =>
      simp only [bearerMachine, Bearer.btAttRegisterDisconnect, if_pos hdead]
      exact ⟨hnone, fun _ hw => hsame hw⟩
  | unregister handler =>
      simp only [bearerMachine, Bearer.btAttUnregister, h.notifyList, List.find?_nil, ite_self]
      exact ⟨hnone, fun _ hw => hsame hw⟩
  | unregisterAll =>
      simp only [bearerMachine, Bearer.btAttUnregisterAll, h.notifyList, h.disconnList,
        List.map_nil, List.append_nil, List.flatMap_nil]
      refine ⟨hnone, fun _ hw => ?_⟩
      exact Option.some.inj hw ▸ { h with notifyList := rfl, disconnList := rfl }
  | setTimeoutCb callback destroy =>
      refine ⟨fun e he => ?_, fun _ hw => Option.some.inj hw ▸ { h with }⟩
      rcases List.mem_append.mp he with hdestroy | hnew
      · exact late_destroyEvents w.att.timeoutDestroy e hdestroy
      · rw [List.mem_singleton.mp hnew]
        trivial
  | unref =>
      refine ⟨?_, fun _ hw => absurd hw.symm (Option.some_ne_none _)⟩
      simp only [bearerMachine, Bearer.btAttUnref, Bearer.btAttUnregisterAll,
        Bearer.btAttCancelAll, h.notifyList, h.disconnList, h.reqQueue, h.indQueue, h.writeQueue,
        h.pendingReq, h.pendingInd, cancelPending, List.map_nil, List.append_nil,
        List.flatMap_nil, Option.toList_none, List.nil_append]
      exact late_destroyEvents w.att.timeoutDestroy

theorem closed_run {w : Endpoint σ κ δ} (h : w.att.Closed) (is : List (BearerInput ε κ δ)) :
    ∀ e ∈ ((bearerMachine U).run w is).1, e.Late := by
  induction is generalizing w with
  | nil => exact fun e he => absurd he List.not_mem_nil
  | cons i is ih =>
      have hfirst := closed_step U h i
      rcases hm : (bearerMachine U).step w i with ⟨out, _ | w'⟩
      · rw [StepMachine.run_cons_stop _ hm]
        rw [hm] at hfirst
        exact hfirst.1
      · rw [StepMachine.run_cons_go _ hm]
        rw [hm] at hfirst
        intro e he
        rcases List.mem_append.mp he with hout | hrest
        · exact hfirst.1 e hout
        · exact ih (hfirst.2 w' rfl) e hrest

/-- After a disconnect the bearer is closed, and whatever happens then, no
    operation is accepted, sent or freed and no callback is called. -/
theorem hangup_final {w : Endpoint σ κ δ} (hio : w.att.io = true) (env : ε) (err : ℤ)
    (is : List (BearerInput ε κ δ)) :
    ∃ w', ((bearerMachine U).step w (.hangup env err)).2 = some w' ∧ w'.att.Closed ∧
      ∀ e ∈ ((bearerMachine U).run w' is).1, e.Late := by
  have hclosed := disconnectCb_closed U env w err
  refine ⟨(w.disconnectCb U env err).2, ?_, hclosed, closed_run U hclosed is⟩
  simp only [bearerMachine, if_pos hio]
  rfl

/-- The link is lost while one read is pending and another one is queued. -/
theorem hangup_final_reads : ∃ w w',
    (bearerMachine UpperLayer.idle).Reaches (Endpoint.fresh true 23 none ())
        [.call (.send 0x0a [1, 0] (some 7) none default),
          .call (.send 0x0a [2, 0] (some 8) none default), .writable () true] w ∧
      w.att.pendingReq.isSome ∧ w.att.reqQueue ≠ [] ∧
      ((bearerMachine UpperLayer.idle).step w (.hangup () 104)).2 = some w' ∧ w'.att.Closed ∧
      ∀ e ∈ ((bearerMachine UpperLayer.idle).run w'
        [.call (.send 0x1e [] none none default), .writable () true]).1, e.Late := by
  obtain ⟨w, hreach, hio, hpending, hqueued⟩ : ∃ w,
      (bearerMachine UpperLayer.idle).Reaches (Endpoint.fresh true 23 none ())
        [.call (.send 0x0a [1, 0] (some 7) none default),
          .call (.send 0x0a [2, 0] (some 8) none default), .writable () true] w ∧
      w.att.io = true ∧ w.att.pendingReq.isSome ∧ w.att.reqQueue ≠ [] :=
    ⟨_, rfl, rfl, rfl, List.cons_ne_nil _ _⟩
  rcases hangup_final UpperLayer.idle hio () 104
    [.call (.send 0x1e [] none none default), .writable () true] with ⟨w', hstep, hclosed, hlate⟩
  exact ⟨w, w', hreach, hpending, hqueued, hstep, hclosed, hlate⟩

end Closing

section Answering

/-- A call that cancels nothing. -/
def AttCall.Spares : AttCall κ δ → Prop
  | .cancel _ => False
  | .cancelAll => False
  | _ => True

/-- The link stays as it is, and without a link the operations do. -/
structure Bearer.Frozen (att : Bearer κ δ) (_ : List (BearerEvent κ δ)) (att' : Bearer κ δ) :
    Prop where
  io : att'.io = att.io
  reqQueue : att.io = false → att'.reqQueue = att.reqQueue
  indQueue : att.io = false → att'.indQueue = att.indQueue
  writeQueue : att.io = false → att'.writeQueue = att.writeQueue
  pendingReq : att.io = false → att'.pendingReq = att.pendingReq
  pendingInd : att.io = false → att'.pendingInd = att.pendingInd

theorem Bearer.Frozen.refl (att : Bearer κ δ) (es : List (BearerEvent κ δ)) :
    att.Frozen es att :=
  ⟨rfl, fun _ => rfl, fun _ => rfl, fun _ => rfl, fun _ => rfl, fun _ => rfl⟩

/-- Without cancelling, calls and callbacks freeze a bearer. -/
theorem frozen_law : Law AttCall.Spares (@Bearer.Frozen κ δ) where
  nil att := Bearer.Frozen.refl att []
  trans {a b _ _ _} h h' := by
    have hio (ha : a.io = false) : b.io = false := h.io.trans ha
    exact ⟨h'.io.trans h.io, fun ha => (h'.reqQueue (hio ha)).trans (h.reqQueue ha),
      fun ha => (h'.indQueue (hio ha)).trans (h.indQueue ha),
      fun ha => (h'.writeQueue (hio ha)).trans (h.writeQueue ha),
      fun ha => (h'.pendingReq (hio ha)).trans (h.pendingReq ha),
      fun ha => (h'.pendingInd (hio ha)).trans (h.pendingInd ha)⟩
  perform att call hspares := by
    have hlink := (withers_law.perform att call trivial).io
    suffices h : att.io = false → (att.perform call).2.reqQueue = att.reqQueue ∧
        (att.perform call).2.indQueue = att.indQueue ∧
        (att.perform call).2.writeQueue = att.writeQueue ∧
        (att.perform call).2.pendingReq = att.pendingReq ∧
        (att.perform call).2.pendingInd = att.pendingInd from
      ⟨hlink, fun hio => (h hio).1, fun hio => (h hio).2.1, fun hio => (h hio).2.2.1,
        fun hio => (h hio).2.2.2.1, fun hio => (h hio).2.2.2.2⟩
    intro hio
    cases call with
    | send opcode pdu callback destroy =>
        -- Without a link nothing is accepted.
        rw [perform, Bearer.btAttSend, if_pos (by rw [hio]; exact Bool.false_ne_true)]
        exact ⟨rfl, rfl, rfl, rfl, rfl⟩
    | cancel id => exact hspares.elim
    | cancelAll => exact hspares.elim
    | unregisterDisconnect id =>
        rw [perform, Bearer.btAttUnregisterDisconnect]
        split
        · exact ⟨rfl, rfl, rfl, rfl, rfl⟩
        · split
          · exact ⟨rfl, rfl, rfl, rfl, rfl⟩
          · split <;> exact ⟨rfl, rfl, rfl, rfl, rfl⟩
    | setMtu mtu =>
        rw [perform, Bearer.btAttSetMtu]
        split <;> exact ⟨rfl, rfl, rfl, rfl, rfl⟩
    | setSecurity level accepted =>
        rw [perform, Bearer.btAttSetSecurity]
        split
        · exact ⟨rfl, rfl, rfl, rfl, rfl⟩
        · split <;> exact ⟨rfl, rfl, rfl, rfl, rfl⟩
    | _ => exact ⟨rfl, rfl, rfl, rfl, rfl⟩
  call att call := Bearer.Frozen.refl att _
  free att op := Bearer.Frozen.refl att _

theorem asCall_idle {es : List (BearerEvent κ δ)} (h : ∀ e ∈ es, e.Idle) :
    es.filterMap BearerEvent.asCall = [] := by
  rw [List.filterMap_eq_nil_iff]
  intro e he
  cases e with
  | upcall call => exact (h _ he).elim
  | _ => rfl

/-- The calls of a callback call no callback. -/
theorem performAll_calls (att : Bearer κ δ) (calls : List (AttCall κ δ)) :
    (att.performAll calls).1.filterMap BearerEvent.asCall = [] := by
  induction calls generalizing att with
  | nil => rfl
  | cons call calls ih =>
      have hfirst : (att.perform call).1.filterMap BearerEvent.asCall = [] := by
        have heffect := perform_effect att call
        generalize (att.perform call).1 = es, (att.perform call).2 = att' at heffect
        cases heffect with
        | accepts es op hes h => rw [List.filterMap_append, asCall_idle hes]; rfl
        | less _ _ hes h hmtu => exact asCall_idle hes
      change ((att.perform call).1 ++ _).filterMap _ = []
      rw [List.filterMap_append, hfirst, ih]
      rfl

variable (U : UpperLayer ε σ κ δ) (env : ε)

theorem respond_calls (w : Endpoint σ κ δ) (op : AttSendOp κ δ) (opcode : UInt8)
    (pdu : List UInt8) :
    (w.respond U env op opcode pdu).1.filterMap BearerEvent.asCall = op.callback.toList := by
  rw [Endpoint.respond]
  cases op.callback with
  | none => rfl
  | some callback => exact congrArg (callback :: ·) (performAll_calls w.att _)

/-- The operations of a queue end in its order. -/
theorem discAll_calls (ops : List (AttSendOp κ δ)) (w : Endpoint σ κ δ) :
    (w.discAll U env ops).1.filterMap BearerEvent.asCall = ops.filterMap AttSendOp.callback := by
  induction ops generalizing w with
  | nil => rfl
  | cons op ops ih =>
      change (((w.respond U env op _ _).1 ++ destroyAttSendOp op) ++ _).filterMap _ = _
      rw [List.filterMap_append, List.filterMap_append, respond_calls, asCall_idle (idle_free op),
        ih, List.append_nil]
      cases h : op.callback with
      | none => rw [List.filterMap_cons_none h]; rfl
      | some callback => rw [List.filterMap_cons_some h]; rfl

theorem free_calls (op : Option (AttSendOp κ δ)) :
    (op.toList.flatMap destroyAttSendOp).filterMap BearerEvent.asCall = [] := by
  refine asCall_idle fun e he => ?_
  rcases List.mem_flatMap.mp he with ⟨x, _, hx⟩
  exact idle_free x e hx

theorem endReq_calls (opcode : UInt8) (pdu : List UInt8) (w : Endpoint σ κ δ) :
    (w.endReq U env opcode pdu).1.filterMap BearerEvent.asCall =
      w.att.pendingReq.toList.filterMap AttSendOp.callback := by
  rw [Endpoint.endReq]
  split
  · case h_1 hnone => rw [hnone]; rfl
  · case h_2 op hsome =>
      rw [List.filterMap_append, respond_calls, free_calls, List.append_nil, hsome]
      cases h : op.callback <;> simp only [Option.toList_some, Option.toList_none,
        List.filterMap_cons, h, List.filterMap_nil]

theorem endInd_calls (opcode : UInt8) (pdu : List UInt8) (w : Endpoint σ κ δ) :
    (w.endInd U env opcode pdu).1.filterMap BearerEvent.asCall =
      w.att.pendingInd.toList.filterMap AttSendOp.callback := by
  rw [Endpoint.endInd]
  split
  · case h_1 hnone => rw [hnone]; rfl
  · case h_2 op hsome =>
      rw [List.filterMap_append, respond_calls, free_calls, List.append_nil, hsome]
      cases h : op.callback <;> simp only [Option.toList_some, Option.toList_none,
        List.filterMap_cons, h, List.filterMap_nil]

theorem disconnHandlers_calls (err : ℤ) (remaining : ℕ) (w : Endpoint σ κ δ) :
    (w.disconnHandlers U env err remaining).1.filterMap BearerEvent.asCall = [] := by
  induction remaining generalizing w with
  | zero => rfl
  | succ remaining ih =>
      rw [Endpoint.disconnHandlers]
      refine (List.filterMap_append).trans ?_
      rw [ih, List.append_nil]
      split
      · rfl
      · split
        · rfl
        · split
          · rfl
          · exact performAll_calls w.att _

/-- A bearer without a link, with the operations that a disconnect has not ended
    yet. -/
structure Bearer.Holds (inds writes : List (AttSendOp κ δ)) (req ind : Option (AttSendOp κ δ))
    (att : Bearer κ δ) : Prop where
  io : att.io = false
  indQueue : att.indQueue = inds
  writeQueue : att.writeQueue = writes
  pendingReq : att.pendingReq = req
  pendingInd : att.pendingInd = ind

theorem Bearer.Frozen.holds {att att' : Bearer κ δ} {es : List (BearerEvent κ δ)}
    {inds writes : List (AttSendOp κ δ)} {req ind : Option (AttSendOp κ δ)}
    (h : att.Frozen es att') (hatt : att.Holds inds writes req ind) :
    att'.Holds inds writes req ind :=
  ⟨h.io.trans hatt.io, (h.indQueue hatt.io).trans hatt.indQueue,
    (h.writeQueue hatt.io).trans hatt.writeQueue, (h.pendingReq hatt.io).trans hatt.pendingReq,
    (h.pendingInd hatt.io).trans hatt.pendingInd⟩

theorem discQueue_calls (w : Endpoint σ κ δ) (queue : Bearer κ δ → List (AttSendOp κ δ))
    (empty : Bearer κ δ → Bearer κ δ) :
    (w.discQueue U env queue empty).1.filterMap BearerEvent.asCall =
      (queue w.att).filterMap AttSendOp.callback :=
  discAll_calls U env (queue w.att) _

theorem unregisterAll_calls (att : Bearer κ δ) :
    att.btAttUnregisterAll.1.filterMap BearerEvent.asCall = [] := by
  refine asCall_idle fun e he => ?_
  rcases List.mem_flatMap.mp he with ⟨destroy, _, hdestroy⟩
  exact idle_destroyEvents destroy e hdestroy

variable {U}

/-- If no callback cancels an operation, a disconnect calls the callback of every
    operation that has one, first those of the queues and then the pending ones. -/
theorem hangup_answers (hU : U.Calls AttCall.Spares) {w : Endpoint σ κ δ}
    (hio : w.att.io = true) (err : ℤ) :
    ((bearerMachine U).step w (.hangup env err)).1.filterMap BearerEvent.asCall =
      w.att.ops.filterMap AttSendOp.callback := by
  have hstart : ({ w.att with io := false, writerActive := false } : Bearer κ δ).Holds
      w.att.indQueue w.att.writeQueue w.att.pendingReq w.att.pendingInd := ⟨rfl, rfl, rfl, rfl, rfl⟩
  have hreqs (w : Endpoint σ κ δ) {inds writes : List (AttSendOp κ δ)}
      {req ind : Option (AttSendOp κ δ)} (h : w.att.Holds inds writes req ind) :
      (w.discQueue U env reqQueue fun att => { att with reqQueue := [] }).2.att.Holds
        inds writes req ind :=
    (frozen_law.discAll hU env _ _).holds { h with }
  have hinds (w : Endpoint σ κ δ) {inds writes : List (AttSendOp κ δ)}
      {req ind : Option (AttSendOp κ δ)} (h : w.att.Holds inds writes req ind) :
      (w.discQueue U env indQueue fun att => { att with indQueue := [] }).2.att.Holds
        [] writes req ind :=
    (frozen_law.discAll hU env _ _).holds { h with indQueue := rfl }
  have hwrites (w : Endpoint σ κ δ) {writes : List (AttSendOp κ δ)}
      {req ind : Option (AttSendOp κ δ)} (h : w.att.Holds [] writes req ind) :
      (w.discQueue U env writeQueue fun att => { att with writeQueue := [] }).2.att.Holds
        [] [] req ind :=
    (frozen_law.discAll hU env _ _).holds { h with writeQueue := rfl }
  have hreq (w : Endpoint σ κ δ) {req ind : Option (AttSendOp κ δ)}
      (h : w.att.Holds [] [] req ind) (opcode : UInt8) :
      (w.endReq U env opcode []).2.att.pendingInd = ind := by
    rw [Endpoint.endReq]
    split
    · exact h.pendingInd
    · case h_2 op _ => exact ((frozen_law.respond hU env w op opcode []).holds h).pendingInd
  have h₁ := hreqs { w with att := { w.att with io := false, writerActive := false } } hstart
  have h₂ := hinds _ h₁
  have h₃ := hwrites _ h₂
  have h₄ := hreq _ h₃ (UInt8.ofNat btAttOpErrorRsp)
  have hstep : ((bearerMachine U).step w (.hangup env err)).1 = (w.disconnectCb U env err).1 := by
    simp only [bearerMachine, if_pos hio]
    rfl
  rw [hstep, Endpoint.disconnectCb]
  simp only [List.filterMap_append, discQueue_calls, endReq_calls, endInd_calls,
    disconnHandlers_calls, unregisterAll_calls, List.append_nil, ops]
  rw [h₁.indQueue, h₂.writeQueue, h₃.pendingReq, h₄]

theorem hangup_answers_read :
    ((bearerMachine UpperLayer.idle).step
      ⟨{ Bearer.new true 23 none with
        reqQueue := [⟨2, false, .req, 0x0a, [0x0a, 1, 0], some 7, none⟩]
        pendingReq := some ⟨1, true, .req, 0x0a, [0x0a, 2, 0], some 8, none⟩ }, ()⟩
      (.hangup () 104)).1.filterMap BearerEvent.asCall = [7, 8] :=
  hangup_answers () (U := UpperLayer.idle) (fun _ _ _ _ _ hc => absurd hc List.not_mem_nil) rfl 104

end Answering

end Wallclock
