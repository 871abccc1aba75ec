import Wallclock.Theory.Calls
import Wallclock.Theory.Transport

/-!
# One Request at a Time

The peer's side of the sequential protocol, which the bearer enforces.

A request that arrives sets `in_req`, and only a response that is written to
the socket clears it. A request that arrives before that is not handled: the
link is shut down, and nothing is read any more. `Turn` is the part of the
bearer that decides this, and `Serve` says how it can change with what is read
and written. Everything else a bearer does `Idles`: callbacks, timers and
disconnects leave the turn as it is and neither read nor answer.

## Main definitions

* `BearerEvent.IsRequest`, `BearerEvent.IsAnswer`: What takes a turn, and ends
  it.
* `Turn`, `Serve`: Whose turn it is.
* `Idles`: What does not change that.

## Theorems

* `Bearer.Less.turn`, `idles_law`, `idles_plain`: Calls, callbacks and other changes idle.
* `Idles.path`: What idles is a path.
* `serve_request`, `serve_deaf`, `serve_taken`, `canReadData_serve`,
  `canWriteData_serve`, `serve_step`, `serve_stop`: The steps of a bearer.
* `second_request_refused`, `second_request_refused_reads`: A second request
  before the answer ends the link.
-/

namespace Wallclock

variable {ε σ κ δ : Type*}

/-- A request is received. -/
def BearerEvent.IsRequest : BearerEvent κ δ → Prop
  | .received (opcode :: _) => getOpType opcode = .req
  | _ => False

/-- A response is written to the socket. -/
def BearerEvent.IsAnswer : BearerEvent κ δ → Prop
  | .sent packet => packet.type = .rsp
  | _ => False

/-- The fields that say whether a request may come. -/
structure Turn where
  inReq : Bool
  reading : Bool

def Bearer.turn (att : Bearer κ δ) : Turn := ⟨att.inReq, att.reading⟩

/-- What can happen to the turn. -/
inductive Serve : Turn → List (BearerEvent κ δ) → Turn → Prop
  | other (t : Turn) (e : BearerEvent κ δ) (h : e.Plain ∨ ∃ op, e = .accepted op) : Serve t [e] t
  | hear (inReq : Bool) (pdu : List UInt8) (h : ¬(.received pdu : BearerEvent κ δ).IsRequest) :
      Serve ⟨inReq, true⟩ [.received pdu] ⟨inReq, true⟩
  | accept (pdu : List UInt8) : Serve ⟨false, true⟩ [.received pdu] ⟨true, true⟩
  | refuse (pdu : List UInt8) : Serve ⟨true, true⟩ [.received pdu, .shutdown] ⟨true, false⟩
  | answer (t : Turn) (packet : Packet) (h : packet.type = .rsp) :
      Serve t [.sent packet] ⟨false, t.reading⟩
  | stop (t : Turn) (inReq : Bool) : Serve t [] ⟨inReq, false⟩

/-- The turn is as it was, and nothing was received or answered. -/
structure Idles (att : Bearer κ δ) (es : List (BearerEvent κ δ)) (att' : Bearer κ δ) : Prop where
  turn : att'.turn = att.turn
  events : ∀ e ∈ es, e.Plain ∨ ∃ op, e = .accepted op

theorem Bearer.Less.turn {att att' : Bearer κ δ} (h : att.Less att') : att'.turn = att.turn := by
  rw [Bearer.turn, Bearer.turn, h.inReq, h.reading]

theorem idles_law : Law (fun _ => True) (@Idles κ δ) where
  nil att := ⟨rfl, fun _ he => absurd he List.not_mem_nil⟩
  trans h h' := ⟨h'.turn.trans h.turn, fun e he =>
    (List.mem_append.mp he).elim (h.events e) (h'.events e)⟩
  perform att call _ := by
    have heffect := Bearer.perform_effect att call
    generalize (att.perform call).1 = es, (att.perform call).2 = att' at heffect ⊢
    cases heffect with
    | accepts es op hes h =>
        refine ⟨?_, fun e he => (List.mem_append.mp he).imp (fun hidle => plain_idle (hes e hidle))
          fun hlast => ⟨op, List.mem_singleton.mp hlast⟩⟩
        have henqueue : ({ att with nextSendId := op.id + 1 }.enqueue op).turn = att.turn := by
          rw [Bearer.enqueue]
          cases op.type <;> rfl
        rw [← henqueue]
        rcases Bearer.wakeupWriter_cases ({ att with nextSendId := op.id + 1 }.enqueue op) with
          heq | ⟨_, heq⟩ <;> rw [heq]
        rfl
    | less _ _ hes hless _ => exact ⟨hless.turn, fun e he => Or.inl (plain_idle (hes e he))⟩
  call att call := ⟨rfl, fun e he => Or.inl (by rw [List.mem_singleton.mp he]; trivial)⟩
  free att op := ⟨rfl, fun e he => Or.inl (plain_idle (Bearer.idle_free op e he))⟩

theorem idles_plain : IgnoresPlain (@Idles κ δ) := by
  intro att att' es hes _ _ hreq hreading
  refine ⟨?_, fun e he => Or.inl (hes e he)⟩
  rw [Bearer.turn, Bearer.turn, hreq, hreading]

/-- What idles is a path. -/
theorem Idles.path {att att' : Bearer κ δ} {es : List (BearerEvent κ δ)} (h : Idles att es att') :
    Moves Serve att.turn es att'.turn := by
  have hevents : ∀ es : List (BearerEvent κ δ), (∀ e ∈ es, e.Plain ∨ ∃ op, e = .accepted op) →
      Moves Serve att.turn es att.turn := by
    intro es hes
    induction es with
    | nil => exact Moves.nil _
    | cons e es ih =>
        exact Moves.cons (Serve.other att.turn e (hes e List.mem_cons_self))
          (ih fun x hx => hes x (List.mem_cons_of_mem e hx))
  rw [h.turn]
  exact hevents es h.events

section Steps

variable (U : UpperLayer ε σ κ δ) (env : ε)

/-- A packet is heard, or it is a request and takes its turn. -/
theorem canReadData_serve (link : Link) (packet : List UInt8) {w : Endpoint σ κ δ}
    (hreading : w.att.reading = true) :
    Moves Serve w.att.turn (w.canReadData U env link packet).1
      (w.canReadData U env link packet).2.att.turn := by
  have hU := calls_any U
  have hturn : w.att.turn = ⟨w.att.inReq, true⟩ := by rw [Bearer.turn, hreading]
  have hhear (pdu : List UInt8) (h : ¬(.received pdu : BearerEvent κ δ).IsRequest) :
      Serve w.att.turn ([.received pdu] : List (BearerEvent κ δ)) w.att.turn := by
    rw [hturn]
    exact Serve.hear w.att.inReq pdu h
  have hnotify (w : Endpoint σ κ δ) (opcode : UInt8) (pdu : List UInt8) :=
    (idles_law.handleNotify hU env (fun _ _ _ => trivial) opcode pdu w).path
  rw [Endpoint.canReadData]
  split
  · case h_1 hbuf =>
      rw [hbuf]
      exact Moves.single (hhear [] id)
  · case h_2 opcode pdu hbuf =>
      rw [hbuf]
      have hother (h : getOpType opcode ≠ .req) := hhear (opcode :: pdu) h
      cases htype : getOpType opcode with
      | rsp =>
          refine Moves.cons (hother ?_)
            (idles_law.handleRsp idles_plain hU env link opcode pdu w).path
          rw [htype]
          exact AttOpType.noConfusion
      | conf =>
          refine Moves.cons (hother ?_) (idles_law.handleConf idles_plain hU env pdu w).path
          rw [htype]
          exact AttOpType.noConfusion
      | req =>
          dsimp only
          split
          · case isTrue hbusy =>
              rw [hturn, hbusy]
              exact Moves.single (Serve.refuse (opcode :: pdu))
          · case isFalse hfree =>
              have hrest := hnotify { w with att := { w.att with inReq := true } } opcode pdu
              have htaken : ({ w.att with inReq := true } : Bearer κ δ).turn = ⟨true, true⟩ := by
                rw [Bearer.turn, hreading]
              rw [htaken] at hrest
              rw [hturn, Bool.eq_false_iff.mpr hfree]
              exact Moves.cons (Serve.accept (opcode :: pdu)) hrest
      | cmd =>
          refine Moves.cons (hother ?_) (hnotify w opcode pdu)
          rw [htype]
          exact AttOpType.noConfusion
      | ind =>
          refine Moves.cons (hother ?_) (hnotify w opcode pdu)
          rw [htype]
          exact AttOpType.noConfusion
      | not =>
          refine Moves.cons (hother ?_) (hnotify w opcode pdu)
          rw [htype]
          exact AttOpType.noConfusion
      | unknown =>
          refine Moves.cons (hother ?_) (hnotify w opcode pdu)
          rw [htype]
          exact AttOpType.noConfusion

/-- What is written answers a request, or leaves the turn. -/
theorem canWriteData_serve (ok : Bool) (w : Endpoint σ κ δ) :
    Moves Serve w.att.turn (w.canWriteData U env ok).1 (w.canWriteData U env ok).2.att.turn := by
  have hfree (att : Bearer κ δ) (op : AttSendOp κ δ) :
      Moves Serve att.turn (Bearer.destroyAttSendOp op) att.turn := (idles_law.free att op).path
  rw [Endpoint.canWriteData]
  split
  · exact Moves.nil _
  · case h_2 op att hpick =>
      have hatt : att.turn = w.att.turn := by
        rcases Endpoint.pick_cases hpick with
          ⟨rest, _, rfl⟩ | ⟨_, rest, _, rfl⟩ | ⟨_, rest, _, rfl⟩ <;> rfl
      rw [← hatt]
      have hsent (h : op.type ≠ .rsp) :
          Serve att.turn ([.sent op.packet] : List (BearerEvent κ δ)) att.turn :=
        Serve.other att.turn (.sent op.packet) (Or.inl h)
      split
      · exact (idles_law.respond (calls_any U) env { w with att } op _ []).path.trans (hfree _ op)
      · split
        · case h_1 htype => exact Moves.single (hsent (by rw [htype]; exact AttOpType.noConfusion))
        · case h_2 htype => exact Moves.single (hsent (by rw [htype]; exact AttOpType.noConfusion))
        · case h_3 htype =>
            exact Moves.cons (Serve.answer att.turn op.packet htype)
              (hfree { att with inReq := false } op)
        · case h_4 _ _ htype => exact Moves.cons (hsent htype) (hfree att op)

/-- A step after which the bearer goes on. -/
theorem serve_step {w w' : Endpoint σ κ δ} (i : BearerInput ε κ δ)
    (h : ((bearerMachine U).step w i).2 = some w') :
    Moves Serve w.att.turn ((bearerMachine U).step w i).1 w'.att.turn := by
  have hU := calls_any U
  have hplain {att' : Bearer κ δ} {es : List (BearerEvent κ δ)} (hes : ∀ e ∈ es, e.Plain)
      (hturn : att'.turn = w.att.turn) : Moves Serve w.att.turn es att'.turn :=
    Idles.path ⟨hturn, fun e he => Or.inl (hes e he)⟩
  have hdestroy (destroy : Option δ) :
      ∀ e ∈ (destroyEvents destroy : List (BearerEvent κ δ)), e.Plain := fun e he =>
    plain_idle (Bearer.idle_destroyEvents destroy e he)
  have hnone : ∀ e ∈ ([] : List (BearerEvent κ δ)), e.Plain := fun e he =>
    absurd he List.not_mem_nil
  have hheld (destroy : Option δ) :
      ∀ e ∈ ([.registered destroy] : List (BearerEvent κ δ)), e.Plain := fun e he => by
    rw [List.mem_singleton.mp he]
    trivial
  cases i with
  | readable env link packet =>
      simp only [bearerMachine] at h ⊢
      split at h <;> rename_i hready <;> rw [← Option.some.inj h]
      · rw [if_pos hready]
        exact canReadData_serve U env link packet hready.2
      · rw [if_neg hready]
        exact Moves.nil _
  | error =>
      rw [← Option.some.inj h]
      exact Moves.single (Serve.stop w.att.turn w.att.inReq)
  | writable env ok =>
      simp only [bearerMachine] at h ⊢
      split at h <;> rename_i hready <;> rw [← Option.some.inj h]
      · rw [if_pos hready]
        exact canWriteData_serve U env ok w
      · rw [if_neg hready]
        exact Moves.nil _
  | timeout env timer =>
      rw [← Option.some.inj h]
      exact (idles_law.timeoutCb idles_plain hU env timer w).path
  | hangup env err =>
      simp only [bearerMachine] at h ⊢
      split at h <;> rename_i hready <;> rw [← Option.some.inj h]
      · rw [if_pos hready]
        exact (idles_law.disconnectCb idles_plain hU env err w).path
      · rw [if_neg hready]
        exact Moves.nil _
  | call call =>
      rw [← Option.some.inj h]
      exact (idles_law.perform w.att call trivial).path
  | register opcode callback destroy =>
      rw [← Option.some.inj h]
      simp only [bearerMachine, Bearer.btAttRegister]
      split
      · exact Moves.nil _
      · exact hplain (hheld destroy) rfl
  | registerDisconnect callback destroy =>
      rw [← Option.some.inj h]
      simp only [bearerMachine, Bearer.btAttRegisterDisconnect]
      split
      · exact Moves.nil _
      · exact hplain (hheld destroy) rfl
  | unregister handler =>
      rw [← Option.some.inj h]
      simp only [bearerMachine, Bearer.btAttUnregister]
      split
      · exact Moves.nil _
      · split
        · exact Moves.nil _
        · exact hplain (hdestroy _) rfl
  | unregisterAll =>
      rw [← Option.some.inj h]
      refine hplain (fun e he => ?_) rfl
      rcases List.mem_flatMap.mp he with ⟨destroy, _, hmem⟩
      exact hdestroy destroy e hmem
  | setTimeoutCb callback destroy =>
      rw [← Option.some.inj h]
      refine hplain (fun e he => ?_) rfl
      rcases List.mem_append.mp he with hold | hnew
      · exact hdestroy _ e hold
      · exact hheld destroy e hnew
  | unref => exact absurd h.symm (Option.some_ne_none w')

/-- The last step reads nothing and answers nothing. -/
theorem serve_stop {w : Endpoint σ κ δ} (i : BearerInput ε κ δ)
    (h : ((bearerMachine U).step w i).2 = none) :
    Moves Serve w.att.turn ((bearerMachine U).step w i).1 ⟨false, false⟩ := by
  have hunref : Moves Serve w.att.turn w.att.btAttUnref ⟨false, false⟩ := by
    have hidle : Idles w.att w.att.btAttUnref w.att :=
      ⟨rfl, fun e he => Or.inl (btAttUnref_events w.att e he)⟩
    have hpath := hidle.path.trans (Moves.single (Serve.stop w.att.turn false))
    rwa [List.append_nil] at hpath
  rw [step_stop h]
  exact hunref

/-- A request is admitted, or refused. -/
theorem serve_request {t t' : Turn} {earlier later : List (BearerEvent κ δ)} {pdu : List UInt8}
    (h : Serve t (earlier ++ .received pdu :: later) t')
    (hreq : (.received pdu : BearerEvent κ δ).IsRequest) :
    t = ⟨false, true⟩ ∧ earlier = [] ∧ later = [] ∧ t' = ⟨true, true⟩ ∨
      t = ⟨true, true⟩ ∧ earlier = [] ∧ later = [.shutdown] ∧ t' = ⟨true, false⟩ := by
  have hmem : .received pdu ∈ earlier ++ .received pdu :: later :=
    List.mem_append_right _ List.mem_cons_self
  generalize hes : earlier ++ .received pdu :: later = es at h hmem
  cases h with
  | other _ e h =>
      rw [List.mem_singleton] at hmem
      rcases h with hplain | ⟨op, hop⟩
      · rw [← hmem] at hplain
        exact hplain.elim
      · rw [← hmem] at hop
        exact nomatch hop
  | hear inReq pdu' h =>
      rw [List.mem_singleton] at hmem
      rw [hmem] at hreq
      exact absurd hreq h
  | accept pdu' =>
      rcases List.append_eq_singleton_iff.mp hes with ⟨hnil, htail⟩ | ⟨_, hcons⟩
      · exact Or.inl ⟨rfl, hnil, (List.cons.inj htail).2, rfl⟩
      · exact absurd hcons (List.cons_ne_nil _ _)
  | refuse pdu' =>
      cases earlier with
      | nil => exact Or.inr ⟨rfl, rfl, (List.cons.inj hes).2, rfl⟩
      | cons e earlier =>
          have hshutdown := List.append_eq_singleton_iff.mp (List.cons.inj hes).2
          rcases hshutdown with ⟨_, htail⟩ | ⟨_, hcons⟩
          · exact nomatch (List.cons.inj htail).1
          · exact absurd hcons (List.cons_ne_nil _ _)
  | answer => exact nomatch (List.mem_singleton.mp hmem)
  | stop => exact absurd hmem List.not_mem_nil

/-- Once the bearer does not read, it never does. -/
theorem serve_deaf {t t' : Turn} {es : List (BearerEvent κ δ)} (h : Moves Serve t es t')
    (hdeaf : t.reading = false) : ∀ e ∈ es, ∀ pdu, e ≠ .received pdu := by
  induction h with
  | nil t => exact fun e he => absurd he List.not_mem_nil
  | cons hmove _ ih =>
      intro e he pdu heq
      rcases List.mem_append.mp he with hfirst | hrest
      · cases hmove with
        | other _ e' h =>
            rw [List.mem_singleton.mp hfirst] at heq
            rcases h with hplain | ⟨op, hop⟩
            · rw [heq] at hplain
              exact hplain.elim
            · rw [heq] at hop
              exact nomatch hop
        | hear => exact Bool.noConfusion hdeaf
        | accept => exact Bool.noConfusion hdeaf
        | refuse => exact Bool.noConfusion hdeaf
        | answer =>
            rw [List.mem_singleton.mp hfirst] at heq
            exact nomatch heq
        | stop => exact absurd hfirst List.not_mem_nil
      · refine ih ?_ e hrest pdu heq
        cases hmove with
        | hear => exact Bool.noConfusion hdeaf
        | accept => exact Bool.noConfusion hdeaf
        | refuse => rfl
        | stop => rfl
        | _ => exact hdeaf

/-- A turn that has been taken lasts until it is answered. -/
theorem serve_taken {t t' : Turn} {es : List (BearerEvent κ δ)} (h : Moves Serve t es t')
    (hnone : ∀ e ∈ es, ¬e.IsAnswer) (ht : t.inReq = true ∨ t.reading = false) :
    t'.inReq = true ∨ t'.reading = false := by
  refine Moves.invariant_of (fun t : Turn => t.inReq = true ∨ t.reading = false)
    (fun e => ¬e.IsAnswer) ?_ hnone ht h
  intro s es s' hs hes hmove
  cases hmove with
  | accept => exact Or.inl rfl
  | refuse => exact Or.inl rfl
  | answer _ packet h => exact absurd h (hes _ List.mem_cons_self)
  | stop => exact Or.inr rfl
  | _ => exact hs

end Steps

end Wallclock
