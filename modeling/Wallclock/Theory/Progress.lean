import Wallclock.Theory.Hangup

/-!
# The Writer Is Awake

An operation that can be sent does not wait for somebody to notice it.

The bearer asks the main loop to watch the socket only while it has something
to send, and `wakeup_writer` is called wherever that may have changed.
`Wakeful` is the invariant: whatever can be sent, the socket is watched. One
place breaks it, an operation that times out, since the next one could go
after it. There the bearer shuts the link down, so the invariant is kept in
every run without a shutdown.

## Main definitions

* `Bearer.Wakeful`: The socket is watched if something can be sent.
* `Wakes`: What keeps a bearer wakeful.

## Theorems

* `pick_isSome_iff`: When something can be sent.
* `wakeful_wakeupWriter`, `Wakeful.mono`, `Wakeful.same`, `wakes_wakeupWriter`,
  `Less.wakes`, `wakes_law`: Calls and callbacks keep a bearer wakeful.
* `wakeful_handleRsp`, `wakeful_handleConf`, `wakeful_canReadData`, `wakeful_canWriteData`,
  `wakeful_timeoutCb`, `wakeful_step`, `wakeful_run`: So do the steps.
* `no_lost_wakeup`, `no_lost_wakeup_confirmation`: What can be sent is sent when
  the socket is next ready.
-/

namespace Wallclock

variable {ε σ κ δ : Type*}

namespace Bearer

/-- The socket is watched if something can be sent. -/
def Wakeful (att : Bearer κ δ) : Prop :=
  att.io = true → att.pickNextSendOp.isSome = true → att.writerActive = true

/-- The link is as it was, and so is a watch; and a wakeful bearer stays wakeful. -/
structure Wakes (att : Bearer κ δ) (_ : List (BearerEvent κ δ)) (att' : Bearer κ δ) : Prop where
  io : att'.io = att.io
  active : att.writerActive = true → att'.writerActive = true
  wakeful : att.Wakeful → att'.Wakeful

theorem pick_isSome_iff (att : Bearer κ δ) :
    att.pickNextSendOp.isSome = true ↔ att.writeQueue ≠ [] ∨
      att.pendingReq.isSome = false ∧ att.reqQueue ≠ [] ∨
      att.pendingInd.isSome = false ∧ att.indQueue ≠ [] := by
  rw [pickNextSendOp]
  rcases att.writeQueue with _ | ⟨op, rest⟩
  · rcases att.pendingReq with _ | req <;> rcases att.reqQueue with _ | ⟨x, xs⟩ <;>
      rcases att.pendingInd with _ | ind <;> rcases att.indQueue with _ | ⟨y, ys⟩ <;>
      simp
  · simp

theorem wakeful_wakeupWriter (att : Bearer κ δ) : att.wakeupWriter.Wakeful := by
  intro hio hpick
  rw [wakeupWriter] at hio hpick ⊢
  split at hio <;> rename_i hactive
  · rw [if_pos hactive]
    exact hactive
  rw [if_neg hactive] at hpick ⊢
  split at hio <;> rename_i hempty
  · -- Nothing can be sent.
    rw [if_pos hempty, pick_isSome_iff] at hpick
    simp only [List.isEmpty_iff, Option.isSome_iff_ne_none, ne_eq] at hempty
    rcases hpick with hwrite | ⟨hpending, hreq⟩ | ⟨hpending, hind⟩
    · exact absurd hempty.1 hwrite
    · rw [Option.isSome_eq_false_iff, Option.isNone_iff_eq_none] at hpending
      exact absurd hempty.2.1 (not_or.mpr ⟨not_not.mpr hpending, hreq⟩)
    · rw [Option.isSome_eq_false_iff, Option.isNone_iff_eq_none] at hpending
      exact absurd hempty.2.2 (not_or.mpr ⟨not_not.mpr hpending, hind⟩)
  rw [if_neg hempty] at hpick ⊢
  split at hio <;> rename_i hlink
  · exact absurd hio hlink
  · rw [if_neg hlink]

/-- What can be sent now could be sent before, and the socket is watched if it
    was. -/
theorem Wakeful.mono {att att' : Bearer κ δ} (hwake : att.Wakeful) (hio : att'.io = att.io)
    (hactive : att.writerActive = true → att'.writerActive = true)
    (hwrite : att'.writeQueue.Sublist att.writeQueue) (hreq : att'.reqQueue.Sublist att.reqQueue)
    (hind : att'.indQueue.Sublist att.indQueue)
    (hpendingReq : att'.pendingReq.isSome = att.pendingReq.isSome)
    (hpendingInd : att'.pendingInd.isSome = att.pendingInd.isSome) : att'.Wakeful := by
  have hne {l l' : List (AttSendOp κ δ)} (hsub : l.Sublist l') (hl : l ≠ []) : l' ≠ [] :=
    fun hnil => hl (List.sublist_nil.mp (hnil ▸ hsub))
  intro hlink hpick
  refine hactive (hwake (hio ▸ hlink) ?_)
  rw [pick_isSome_iff, hpendingReq, hpendingInd] at hpick
  rw [pick_isSome_iff]
  rcases hpick with h | ⟨hnone, h⟩ | ⟨hnone, h⟩
  · exact Or.inl (hne hwrite h)
  · exact Or.inr (Or.inl ⟨hnone, hne hreq h⟩)
  · exact Or.inr (Or.inr ⟨hnone, hne hind h⟩)

/-- A bearer with the same queues is as wakeful. -/
theorem Wakeful.same {att att' : Bearer κ δ} (hwake : att.Wakeful) (hio : att'.io = att.io)
    (hactive : att'.writerActive = att.writerActive)
    (hwrite : att'.writeQueue = att.writeQueue) (hreq : att'.reqQueue = att.reqQueue)
    (hind : att'.indQueue = att.indQueue) (hpendingReq : att'.pendingReq = att.pendingReq)
    (hpendingInd : att'.pendingInd = att.pendingInd) : att'.Wakeful :=
  hwake.mono hio (fun h => hactive.trans h) (by rw [hwrite]) (by rw [hreq]) (by rw [hind])
    (by rw [hpendingReq]) (by rw [hpendingInd])

theorem Less.wakes {att att' : Bearer κ δ} (h : att.Less att') (es : List (BearerEvent κ δ)) :
    Wakes att es att' :=
  ⟨h.io, h.writerActive, fun hwake => hwake.mono h.io h.writerActive h.writeQueue h.reqQueue
    h.indQueue h.pendingReq h.pendingInd⟩

/-- A change to the queues after which the writer is woken. -/
theorem wakes_wakeupWriter {att att' : Bearer κ δ} (hio : att'.io = att.io)
    (hactive : att'.writerActive = att.writerActive) (es : List (BearerEvent κ δ)) :
    Wakes att es att'.wakeupWriter := by
  rcases wakeupWriter_cases att' with heq | ⟨_, heq⟩
  · refine ⟨?_, fun h => ?_, fun _ => wakeful_wakeupWriter att'⟩ <;> rw [heq]
    · exact hio
    · exact hactive.trans h
  · refine ⟨?_, fun h => ?_, fun _ => wakeful_wakeupWriter att'⟩ <;> rw [heq]
    exact hio

theorem wakes_law : Law (fun _ => True) (@Wakes κ δ) where
  nil att := (Less.refl att).wakes []
  trans h h' := ⟨h'.io.trans h.io, fun hactive => h'.active (h.active hactive),
    fun hwake => h'.wakeful (h.wakeful hwake)⟩
  perform att call _ := by
    generalize hes : (att.perform call).1 = es, hatt' : (att.perform call).2 = att'
    have heffect := perform_effect att call
    rw [hes, hatt'] at heffect
    cases heffect with
    | accepts es op hes h =>
        refine wakes_wakeupWriter ?_ ?_ _ <;> rw [enqueue] <;> cases op.type <;> rfl
    | less _ _ _ hless _ => exact hless.wakes es
  call att call := (Less.refl att).wakes _
  free att op := (Less.refl att).wakes _

end Bearer

namespace Endpoint

open Bearer

variable (U : UpperLayer ε σ κ δ) (env : ε) (w : Endpoint σ κ δ)

/-- A response leaves a bearer wakeful, whatever it finds. -/
theorem wakeful_handleRsp (link : Link) (opcode : UInt8) (pdu : List UInt8)
    (hwake : w.att.Wakeful) : (w.handleRsp U env link opcode pdu).2.att.Wakeful := by
  rw [handleRsp]
  split
  · exact hwake
  · split
    · split
      · exact wakeful_wakeupWriter _
      · split <;> exact wakeful_wakeupWriter _
    · split <;> exact wakeful_wakeupWriter _

theorem wakeful_handleConf (pdu : List UInt8) (hwake : w.att.Wakeful) :
    (w.handleConf U env pdu).2.att.Wakeful := by
  rw [handleConf]
  split
  · exact hwake
  · exact wakeful_wakeupWriter _

theorem wakeful_canReadData (link : Link) (packet : List UInt8) (hwake : w.att.Wakeful) :
    (w.canReadData U env link packet).2.att.Wakeful := by
  have hnotify (w : Endpoint σ κ δ) (hwake : w.att.Wakeful) (opcode : UInt8) (pdu : List UInt8) :
      (w.handleNotify U env opcode pdu).2.att.Wakeful :=
    (wakes_law.handleNotify (calls_any U) env (fun _ _ _ => trivial) opcode pdu w).wakeful hwake
  rw [canReadData]
  split
  · exact hwake
  · rename_i opcode pdu _
    cases getOpType opcode with
    | rsp => exact wakeful_handleRsp U env w link opcode pdu hwake
    | conf => exact wakeful_handleConf U env w pdu hwake
    | req =>
        change
          (if w.att.inReq then _ else _ : List (BearerEvent κ δ) × Endpoint σ κ δ).2.att.Wakeful
        split
        · exact hwake.same rfl rfl rfl rfl rfl rfl rfl
        · exact hnotify { w with att := { w.att with inReq := true } }
            (hwake.same rfl rfl rfl rfl rfl rfl rfl) opcode pdu
    | _ => exact hnotify w hwake opcode pdu

/-- The writer is given up only if nothing can be sent. -/
theorem wakeful_canWriteData (ok : Bool) (hactive : w.att.writerActive = true) :
    (w.canWriteData U env ok).2.att.Wakeful := by
  rw [canWriteData]
  split
  · case h_1 hpick =>
      intro _ hnone
      have hsame : ({ w.att with writerActive := false } : Bearer κ δ).pickNextSendOp.isSome =
          w.att.pickNextSendOp.isSome := by
        rw [Bool.eq_iff_iff, pick_isSome_iff, pick_isSome_iff]
      rw [hsame, hpick] at hnone
      exact absurd hnone Bool.false_ne_true
  · case h_2 op att hpick =>
      have hatt : att.writerActive = true := by
        rcases pick_cases hpick with ⟨rest, _, rfl⟩ | ⟨rest, _, _, rfl⟩ | ⟨rest, _, _, rfl⟩ <;>
          exact hactive
      split
      · -- The callback of an operation that is not sent leaves the writer.
        exact fun _ _ => (wakes_law.respond (calls_any U) env { w with att } op _ _).active hatt
      · split <;> exact fun _ _ => hatt

/-- An operation that times out leaves a dead link, or one that is shut down. -/
theorem wakeful_timeoutCb (id : BitVec 32) (hwake : w.att.Wakeful)
    (hup : .shutdown ∉ (w.timeoutCb U env id).1) : (w.timeoutCb U env id).2.att.Wakeful := by
  have hexpire (op : AttSendOp κ δ) (att : Bearer κ δ)
      (hup : .shutdown ∉ (w.expire U env op att).1) : (w.expire U env op att).2.att.Wakeful := by
    intro hio
    refine absurd (List.mem_append_right _ ?_) hup
    exact (if_pos hio).symm ▸ List.mem_singleton_self _
  rw [timeoutCb] at hup ⊢
  split at hup
  · exact hexpire _ _ hup
  · split at hup
    · exact hexpire _ _ hup
    · exact hwake

end Endpoint

open Bearer Endpoint

variable (U : UpperLayer ε σ κ δ)

/-- A step without a shutdown leaves the bearer wakeful. -/
theorem wakeful_step {w w' : Endpoint σ κ δ} (i : BearerInput ε κ δ) (hwake : w.att.Wakeful)
    (hup : .shutdown ∉ ((bearerMachine U).step w i).1)
    (h : ((bearerMachine U).step w i).2 = some w') : w'.att.Wakeful := by
  cases i with
  | readable env link packet =>
      simp only [bearerMachine] at h
      split at h <;> rw [← Option.some.inj h]
      · exact wakeful_canReadData U env w link packet hwake
      · exact hwake
  | error =>
      rw [← Option.some.inj h]
      exact hwake.same rfl rfl rfl rfl rfl rfl rfl
  | writable env ok =>
      simp only [bearerMachine] at h
      split at h <;> rw [← Option.some.inj h]
      · case isTrue hwatch => exact wakeful_canWriteData U env w ok hwatch.2
      · exact hwake
  | timeout env timer =>
      rw [← Option.some.inj h]
      exact wakeful_timeoutCb U env w timer hwake hup
  | hangup env err =>
      simp only [bearerMachine] at h
      split at h <;> rw [← Option.some.inj h]
      · have hclosed := disconnectCb_closed U env w err
        exact fun hio => absurd (hclosed.io.symm.trans hio) Bool.false_ne_true
      · exact hwake
  | call call =>
      rw [← Option.some.inj h]
      exact (wakes_law.perform w.att call trivial).wakeful hwake
  | register opcode callback destroy =>
      rw [← Option.some.inj h]
      dsimp only [btAttRegister]
      split
      · exact hwake
      · exact hwake.same rfl rfl rfl rfl rfl rfl rfl
  | registerDisconnect callback destroy =>
      rw [← Option.some.inj h]
      dsimp only [btAttRegisterDisconnect]
      split
      · exact hwake
      · exact hwake.same rfl rfl rfl rfl rfl rfl rfl
  | unregister handler =>
      rw [← Option.some.inj h]
      dsimp only [btAttUnregister]
      split
      · exact hwake
      · split
        · exact hwake
        · exact hwake.same rfl rfl rfl rfl rfl rfl rfl
  | unregisterAll =>
      rw [← Option.some.inj h]
      exact hwake.same rfl rfl rfl rfl rfl rfl rfl
  | setTimeoutCb callback destroy =>
      rw [← Option.some.inj h]
      exact hwake.same rfl rfl rfl rfl rfl rfl rfl
  | unref => exact absurd h.symm (Option.some_ne_none w')

/-- A run without a shutdown leaves the bearer wakeful. -/
theorem wakeful_run {w w' : Endpoint σ κ δ} (is : List (BearerInput ε κ δ))
    (hwake : w.att.Wakeful) (hup : .shutdown ∉ ((bearerMachine U).run w is).1)
    (h : ((bearerMachine U).run w is).2 = some w') : w'.att.Wakeful := by
  induction is generalizing w with
  | nil => exact Option.some.inj h ▸ hwake
  | cons i is ih =>
      rcases hm : (bearerMachine U).step w i with ⟨out, _ | v⟩
      · rw [StepMachine.run_cons_stop _ hm] at h
        exact absurd h.symm (Option.some_ne_none w')
      · rw [StepMachine.run_cons_go _ hm] at h hup
        refine ih (wakeful_step U i hwake ?_ (by rw [hm])) (fun hmem => ?_) h
        · rw [hm]
          exact fun hmem => hup (List.mem_append_left _ hmem)
        · exact hup (List.mem_append_right _ hmem)

/-- In a run without a shutdown, if an operation can be sent then the socket is
    watched, and the operation is sent when the socket can next be written. -/
theorem no_lost_wakeup (ioOnL2cap : Bool) (mtu : ℕ) (crypto : Option AfAlg) (upper : σ)
    (is : List (BearerInput ε κ δ)) {out : List (BearerEvent κ δ)} {w : Endpoint σ κ δ}
    (hrun : (bearerMachine U).run (Endpoint.fresh ioOnL2cap mtu crypto upper) is = (out, some w))
    (hup : .shutdown ∉ out) (hio : w.att.io = true) {op : AttSendOp κ δ} {att : Bearer κ δ}
    (hpick : w.att.pickNextSendOp = some (op, att)) (env : ε) :
    .sent op.packet ∈ ((bearerMachine U).step w (.writable env true)).1 := by
  have hfresh : (Endpoint.fresh ioOnL2cap mtu crypto upper : Endpoint σ κ δ).att.Wakeful := by
    intro _ hpick
    exact absurd hpick Bool.false_ne_true
  have hwake : w.att.Wakeful := by
    refine wakeful_run U is hfresh ?_ (congrArg Prod.snd hrun)
    rw [hrun]
    exact hup
  have hactive := hwake hio (by rw [hpick]; rfl)
  simp only [bearerMachine, hio, hactive, and_self, if_true, Endpoint.canWriteData, hpick]
  cases op.type <;> exact List.mem_cons_self

theorem no_lost_wakeup_confirmation :
    .sent ⟨1, .conf, [0x1e]⟩ ∈ ((bearerMachine UpperLayer.idle).run
      (Endpoint.fresh true 23 none ()) [.call (.send 0x1e [] none none default)]).2.elim []
        fun w => ((bearerMachine UpperLayer.idle).step w (.writable () true)).1 :=
  no_lost_wakeup UpperLayer.idle true 23 none () [.call (.send 0x1e [] none none default)] rfl
    (fun h => nomatch List.mem_singleton.mp h) rfl rfl ()

end Wallclock
