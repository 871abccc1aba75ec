import Wallclock.Theory.Calls
import Wallclock.Theory.PrepareQueue
import Wallclock.Theory.Responses

/-!
# The Server and the Wire

The bearer with the GATT server above it, under whatever the main loop reports,
refines the handlers alone. `gattMachine` reads one PDU after the other and
queues PDUs. The real server reads a PDU when the socket can be read, queues its
answer with the bearer, and writes it when the socket can be written, which may
be later, and after other PDUs have arrived. `Wire` is what the peer sees of
that. With a polite client, what is on the wire and what still waits for it are
what the handlers have queued, in order, whatever the order of the events.

So what is proved about the handlers holds of the server, and a polite client is
never cut off. The invariant is `Serves`: a response is queued exactly as long
as the bearer thinks that a request is in progress. The transmission unit is
kept in two places, by the bearer and by the GATT server, which agree because
only an Exchange MTU Request changes them and changes both.

## Main definitions

* `Wire`: What the peer sees.
* `Event.asWire`, `AttSendOp.asWire`, `BearerEvent.asWire`: The views of it.
* `Event.Sendable`: What the bearer accepts.
* `Queued`: What queueing PDUs does to a bearer.
* `Attached`, `Serves`: The server on its bearer.
* `BearerInput.asExchange`: The PDU that is handled.
* `Polite`: The inputs that a polite client causes.

## Theorems

* `Queued.refl`, `Queued.trans`, `Queued.wakeupWriter`: Queueing composes.
* `btAttSend_queued`, `performAll_queued`: What is sendable is queued.
* `prepDataNew_attMtu`, `storePrepData_attMtu`, `prepWriteCb_attMtu`,
  `removeAllPrepData_attMtu`, `execNextPrepWrite_attMtu`, `execWriteCb_attMtu`,
  `handleNotify_attMtu`, `handleNotify_small`: The transmission unit.
* `asWire_effect`, `asWire_performAll`, `performAll_append`: Calls of the transport.
* `handleNotify_sendable`, `upcall_handler`: A handler on the bearer.
* `notifyAll_filter`, `opcode_of_ofByte`, `filter_handler`, `filter_none`: Which one is called.
* `handleNotify_served`, `handleNotify_unserved`: A PDU on the bearer.
* `Attached.next`, `step_handled`, `step_writable`, `served_buffers`: One step.
* `register_handlers`, `serves_fresh`: A new connection.
* `served_refines`, `served_refines_timeRequest`: Whole runs.
-/

namespace Wallclock

open ByteCodec Bearer StepMachine

/-- The bearer that the server is on. -/
abbrev ServerBearer := Bearer ServerCallback Empty

/-- What the peer sees of the bearer. -/
inductive Wire
  | pdu (bytes : List UInt8)
  | shutdown
deriving DecidableEq

def Event.asWire : Event → Option Wire
  | .queued opcode pdu => some (.pdu (UInt8.ofNat opcode :: pdu))
  | _ => none

def AttSendOp.asWire {κ δ : Type*} (op : AttSendOp κ δ) : Wire := .pdu op.pdu

def BearerEvent.asWire {κ δ : Type*} : BearerEvent κ δ → Option Wire
  | .sent packet => some (.pdu packet.pdu)
  | .shutdown => some .shutdown
  | _ => none

/-- A queued PDU is a response or a notification, and fits. -/
def Event.Sendable (mtu : ℕ) : Event → Prop
  | .queued opcode pdu => 1 + pdu.length ≤ mtu ∧ getOpType (UInt8.ofNat opcode) =
      if opcode = btAttOpHandleValNot then .not else .rsp
  | _ => True

/-- What queueing PDUs does to a bearer. -/
structure Queued (att att' : ServerBearer) (events : List Event) : Prop where
  io : att'.io = att.io
  reading : att'.reading = att.reading
  inReq : att'.inReq = att.inReq
  mtu : att'.mtu = att.mtu
  localSign : att'.localSign = att.localSign
  notifyList : att'.notifyList = att.notifyList
  reqQueue : att'.reqQueue = att.reqQueue
  indQueue : att'.indQueue = att.indQueue
  wire : att'.writeQueue.map AttSendOp.asWire =
    att.writeQueue.map AttSendOp.asWire ++ events.filterMap Event.asWire
  types : ∀ op ∈ att'.writeQueue, op ∈ att.writeQueue ∨ op.type = .rsp ∨ op.type = .not
  count : att'.writeQueue.countP (·.type = .rsp) =
    att.writeQueue.countP (·.type = .rsp) + (events.filterMap Event.asResponse).length

namespace Queued

theorem refl (att : ServerBearer) : Queued att att [] :=
  ⟨rfl, rfl, rfl, rfl, rfl, rfl, rfl, rfl, (List.append_nil _).symm, fun _ h => Or.inl h, rfl⟩

theorem trans {att att' att'' : ServerBearer} {events events' : List Event}
    (h : Queued att att' events) (h' : Queued att' att'' events') :
    Queued att att'' (events ++ events') where
  io := h'.io.trans h.io
  reading := h'.reading.trans h.reading
  inReq := h'.inReq.trans h.inReq
  mtu := h'.mtu.trans h.mtu
  localSign := h'.localSign.trans h.localSign
  notifyList := h'.notifyList.trans h.notifyList
  reqQueue := h'.reqQueue.trans h.reqQueue
  indQueue := h'.indQueue.trans h.indQueue
  wire := by rw [h'.wire, h.wire, List.filterMap_append, List.append_assoc]
  types := fun op hop => (h'.types op hop).elim (h.types op) Or.inr
  count := by rw [h'.count, h.count, List.filterMap_append, List.length_append, Nat.add_assoc]

theorem wakeupWriter {att att' : ServerBearer} {events : List Event}
    (h : Queued att att' events) : Queued att att'.wakeupWriter events := by
  rcases wakeupWriter_cases att' with heq | ⟨_, heq⟩
  · rw [heq]
    exact h
  · rw [heq]
    exact { h with }

end Queued

section Sending

variable {att : ServerBearer}

/-- A PDU that fits is accepted. -/
theorem btAttSend_queued (hio : att.io = true) (hsign : att.localSign = none)
    (hmtu : att.mtu < 2 ^ 16) {opcode : ℕ} {pdu : List UInt8}
    (h : (Event.queued opcode pdu).Sendable att.mtu) :
    Queued att (att.btAttSend (UInt8.ofNat opcode) pdu none none default).2
      [.queued opcode pdu] := by
  rcases h with ⟨hfits, htype⟩
  have hencode : (att.encodePdu (UInt8.ofNat opcode) pdu default).pdu =
      some (UInt8.ofNat opcode :: pdu) := by
    have hmod : (1 + 0 + pdu.length) % 2 ^ 16 = (UInt8.ofNat opcode :: pdu).length := by
      rw [List.length_cons, Nat.mod_eq_of_lt (by omega)]
      omega
    simp only [encodePdu, hsign, Option.isSome_none, Bool.false_eq_true, false_and, if_false]
    rw [hmod, if_neg (by rw [List.length_cons]; omega)]
    simp only [List.range_zero, List.map_nil, List.append_nil, List.take_length]
  have hkind : getOpType (UInt8.ofNat opcode) = .rsp ∨ getOpType (UInt8.ofNat opcode) = .not := by
    rw [htype]
    split_ifs
    · exact Or.inr rfl
    · exact Or.inl rfl
  have hcreate : ∃ events op, att.createAttSendOp (UInt8.ofNat opcode) pdu none none default =
      (events, some op) ∧ op.type = getOpType (UInt8.ofNat opcode) ∧
      op.pdu = UInt8.ofNat opcode :: pdu := by
    refine ⟨if (att.encodePdu (UInt8.ofNat opcode) pdu default).overflow then [.overflow] else [],
      ⟨0, false, getOpType (UInt8.ofNat opcode), UInt8.ofNat opcode,
      UInt8.ofNat opcode :: pdu, none, none⟩, ?_, rfl, rfl⟩
    unfold createAttSendOp
    rcases hkind with hrsp | hnot
    · simp only [hrsp, hencode, Option.isSome_none, reduceCtorEq, or_self, decide_false,
        ne_eq, not_true_eq_false, if_false, Option.map_some]
    · simp only [hnot, hencode, Option.isSome_none, reduceCtorEq, or_self, decide_false,
        ne_eq, not_true_eq_false, if_false, Option.map_some]
  rcases hcreate with ⟨events, op, hcreate, hop, hpdu⟩
  -- Neither kind waits for an answer, so that both go to the same queue.
  have henqueue (att : ServerBearer) (id : BitVec 32) :
      att.enqueue { op with id } =
        { att with writeQueue := att.writeQueue ++ [{ op with id }] } := by
    rw [enqueue]
    rcases hkind with hrsp | hnot
    · simp only [hop, hrsp]
    · simp only [hop, hnot]
  have hcount (id : BitVec 32) : ([{ op with id }] : List (AttSendOp ServerCallback Empty)).countP
      (·.type = .rsp) = ([Event.queued opcode pdu].filterMap Event.asResponse).length := by
    by_cases hval : opcode = btAttOpHandleValNot
    · rw [if_pos hval] at htype
      simp only [List.countP_singleton, hop, htype, List.filterMap_cons, Event.asResponse,
        if_pos hval, List.filterMap_nil, List.length_nil, reduceCtorEq, decide_false,
        Bool.false_eq_true, if_false]
    · rw [if_neg hval] at htype
      simp only [List.countP_singleton, hop, htype, List.filterMap_cons, Event.asResponse,
        if_neg hval, List.filterMap_nil, List.length_singleton, decide_true, if_true]
  rw [Bearer.btAttSend, if_neg (by rw [hio]; exact fun h => h rfl), hcreate]
  simp only
  generalize (if att.nextSendId < 1 then 1 else att.nextSendId) = id
  rw [henqueue]
  refine Queued.wakeupWriter ⟨rfl, rfl, rfl, rfl, rfl, rfl, rfl, rfl, ?_, fun o ho => ?_, ?_⟩
  · simp only [List.map_append, List.map_cons, List.map_nil, AttSendOp.asWire, hpdu,
      List.filterMap_cons, Event.asWire, List.filterMap_nil]
  · rcases List.mem_append.mp ho with hold | hnew
    · exact Or.inl hold
    · rw [List.mem_singleton.mp hnew]
      exact Or.inr (hop ▸ hkind)
  · rw [List.countP_append, hcount]

/-- The PDUs that a handler queues are accepted in their order. -/
theorem performAll_queued (hio : att.io = true) (hsign : att.localSign = none)
    (hmtu : att.mtu < 2 ^ 16) {events : List Event} (h : ∀ e ∈ events, e.Sendable att.mtu) :
    Queued att (att.performAll (events.filterMap Event.asCall)).2 events := by
  induction events generalizing att with
  | nil => exact Queued.refl att
  | cons e events ih =>
      have hrest (e' : Event) (he' : e' ∈ events) := h e' (List.mem_cons_of_mem e he')
      cases e with
      | queued opcode pdu =>
          have hfirst := btAttSend_queued hio hsign hmtu (h _ List.mem_cons_self)
          have htail := ih (hfirst.io.trans hio) (hfirst.localSign.trans hsign)
            (hfirst.mtu ▸ hmtu) (hfirst.mtu ▸ hrest)
          exact hfirst.trans htail
      | command value => exact { ih hio hsign hmtu hrest with }
      | corrupt => exact { ih hio hsign hmtu hrest with }

end Sending

section TransmissionUnit

variable {env : Env} {c c' : Connection}

theorem prepDataNew_attMtu {handle offset : ℕ} {value : List UInt8} {stored : Bool}
    (h : prepDataNew c handle offset value = some (c', stored)) : c'.attMtu = c.attMtu := by
  rcases Option.bind_eq_some_iff.mp h with ⟨⟨p, fits⟩, _, heq⟩
  cases fits with
  | false => rw [← (Prod.mk.inj (Option.some.inj heq)).1]
  | true => rw [← (Prod.mk.inj (Option.some.inj heq)).1]

theorem storePrepData_attMtu {handle offset : ℕ} {value : List UInt8} {stored : Bool}
    (h : storePrepData c handle offset value = some (c', stored)) : c'.attMtu = c.attMtu := by
  unfold storePrepData at h
  split at h
  · exact prepDataNew_attMtu h
  · split at h
    · rcases Option.bind_eq_some_iff.mp h with ⟨_, _, heq⟩
      rw [← (Prod.mk.inj (Option.some.inj heq)).1]
    · exact prepDataNew_attMtu h

theorem prepWriteCb_attMtu {opcode : ℕ} {pdu : List UInt8}
    (h : (prepWriteCb env c opcode pdu).2 = some c') : c'.attMtu = c.attMtu := by
  have hsame (heq : some c = some c') : c'.attMtu = c.attMtu := by
    rw [← Option.some.inj heq]
  unfold prepWriteCb at h
  split_ifs at h
  · exact hsame h
  · exact hsame h
  simp only at h
  split at h
  · exact hsame h
  next a _ =>
  split_ifs at h
  · exact hsame h
  have hwrite := gattDbAttributeWrite_untouched env c a (getLe16 (pdu.drop 2)) none
  rcases heq : gattDbAttributeWrite env c a (getLe16 (pdu.drop 2)) none
    with ⟨events, _ | ⟨d, _ | err⟩⟩
  · rw [heq] at h
    exact absurd h.symm (Option.some_ne_none c')
  · rw [heq] at h hwrite
    exact hwrite.mtu c' h
  · rw [heq] at h hwrite
    have hd : d.attMtu = c.attMtu := hwrite.mtu d rfl
    simp only [prepWriteCompleteCb] at h
    split_ifs at h
    · rw [← Option.some.inj h]
      exact hd
    · split at h
      · exact absurd h.symm (Option.some_ne_none c')
      · case h_2 d' _ hstore =>
          rw [← Option.some.inj h]
          exact (storePrepData_attMtu hstore).trans hd

theorem removeAllPrepData_attMtu {answer : List Event}
    (h : (removeAllPrepData c answer).2 = some c') : c'.attMtu = c.attMtu := by
  unfold removeAllPrepData at h
  split_ifs at h
  rw [← Option.some.inj h]

theorem execNextPrepWrite_attMtu {ehandle : ℕ} {queue : List PrepWriteData}
    (h : (execNextPrepWrite env c ehandle queue).2 = some c') : c'.attMtu = c.attMtu := by
  induction queue generalizing c ehandle with
  | nil => rw [← Option.some.inj h]
  | cons p queue ih =>
      unfold execNextPrepWrite at h
      simp only at h
      split at h
      · exact removeAllPrepData_attMtu (c := { c with prepQueue := queue }) h
      next a _ =>
      split at h
      · exact absurd h.symm (Option.some_ne_none c')
      generalize (if p.value.length = 0 then none else some p.value) = value at h
      have hwrite := gattDbAttributeWrite_untouched env { c with prepQueue := queue } a p.offset
        value
      rcases heq : gattDbAttributeWrite env { c with prepQueue := queue } a p.offset value
        with ⟨events, _ | ⟨d, _ | err⟩⟩
      · rw [heq] at h
        exact absurd h.symm (Option.some_ne_none c')
      · rw [heq] at h hwrite
        exact hwrite.mtu c' h
      · rw [heq] at h hwrite
        have hd : d.attMtu = c.attMtu := hwrite.mtu d rfl
        simp only at h
        split_ifs at h
        · exact (removeAllPrepData_attMtu h).trans hd
        · exact (ih h).trans hd

theorem execWriteCb_attMtu {opcode : ℕ} {pdu : List UInt8}
    (h : (execWriteCb env c opcode pdu).2 = some c') : c'.attMtu = c.attMtu := by
  unfold execWriteCb at h
  simp only at h
  split_ifs at h
  · exact removeAllPrepData_attMtu h
  · exact removeAllPrepData_attMtu h
  · split at h
    · exact removeAllPrepData_attMtu h
    · exact execNextPrepWrite_attMtu h
  · exact execNextPrepWrite_attMtu h
  · exact removeAllPrepData_attMtu h

/-- Only an Exchange MTU Request changes the transmission unit. -/
theorem handleNotify_attMtu {i : Exchange} (h : (handleNotify c i).2 = some c')
    (hop : ¬(i.opcode = .mtuReq ∧ i.pdu.length = 2)) : c'.attMtu = c.attMtu := by
  by_cases hprep : i.opcode = .prepWriteReq
  · simp only [handleNotify, hprep] at h
    exact prepWriteCb_attMtu h
  by_cases hexec : i.opcode = .execWriteReq
  · simp only [handleNotify, hexec] at h
    exact execWriteCb_attMtu h
  · exact (handleNotify_untouched hop hprep hexec).mtu c' h

end TransmissionUnit

section Layer

variable {w : Endpoint (Option Connection) ServerCallback Empty} {c c' : Connection}

/-- A call of the transport shows nothing to the peer. -/
theorem asWire_effect {κ δ : Type*} {att att' : Bearer κ δ} {call : AttCall κ δ}
    {es : List (BearerEvent κ δ)} (h : Effect att call es att') :
    es.filterMap BearerEvent.asWire = [] := by
  have hidle {es : List (BearerEvent κ δ)} (hes : ∀ e ∈ es, e.Idle) :
      es.filterMap BearerEvent.asWire = [] := by
    refine List.filterMap_eq_nil_iff.mpr fun e he => ?_
    have h := hes e he
    cases e with
    | sent packet => exact h.elim
    | shutdown => exact h.elim
    | _ => rfl
  cases h with
  | accepts es op hes _ _ =>
      rw [List.filterMap_append, hidle hes]
      rfl
  | less es att' hes _ _ => exact hidle hes

theorem asWire_performAll {κ δ : Type*} (att : Bearer κ δ) (calls : List (AttCall κ δ)) :
    (att.performAll calls).1.filterMap BearerEvent.asWire = [] := by
  induction calls generalizing att with
  | nil => rfl
  | cons call calls ih =>
      rw [performAll]
      simp only [List.filterMap_append, ih, List.append_nil]
      exact asWire_effect (perform_effect att call)

/-- The server on its bearer: the handlers are registered, and nothing but
    responses and notifications is queued. -/
structure Attached (w : Endpoint (Option Connection) ServerCallback Empty) (c : Connection) :
    Prop where
  upper : w.upper = some c
  ready : Ready c
  io : w.att.io = true
  reading : w.att.reading = true
  mtu : w.att.mtu = c.attMtu
  small : c.attMtu < 2 ^ 16
  localSign : w.att.localSign = none
  notifyList : (w.att.notifyList.map fun n => (n.opcode, n.callback)) =
    Opcode.all.map fun o => (UInt8.ofNat o.code, ServerCallback.handler o)
  reqQueue : w.att.reqQueue = []
  indQueue : w.att.indQueue = []
  queued : ∀ op ∈ w.att.writeQueue, op.type = .rsp ∨ op.type = .not

/-- Between two inputs a response is queued exactly as long as a request is in
    progress. -/
structure Serves (w : Endpoint (Option Connection) ServerCallback Empty) (c : Connection) : Prop
    extends Attached w c where
  inReq : w.att.writeQueue.countP (·.type = .rsp) = if w.att.inReq then 1 else 0

/-- What a handler queues can be sent. -/
theorem handleNotify_sendable {i : Exchange} (h : Ready c) (hi : Received c i)
    (hnext : (handleNotify c i).2 = some c') :
    ∀ e ∈ (handleNotify c i).1, e.Sendable c.attMtu := by
  have hmtu : 23 ≤ c.attMtu := h.mtu
  rcases handleNotify_shape h hi hnext with ⟨call, answer, heq, hanswer⟩
  rw [heq]
  intro e he
  rcases List.mem_append.mp he with hdispatch | hlast
  · rcases List.mem_flatMap.mp hdispatch with ⟨cmd, _, hcmd⟩
    rcases List.mem_cons.mp hcmd with rfl | hreply
    · trivial
    rcases List.mem_map.mp hreply with ⟨reply, hmem, rfl⟩
    -- A reply of `clock_command` is short.
    have hlen := length_clockCommand hmem
    simp only [sizeofMsgU64, sizeofMsgU8] at hlen
    refine ⟨?_, rfl⟩
    rw [List.length_append, length_leBytes]
    omega
  · rcases hanswer with ⟨_, rfl⟩ | ⟨_, rsp, rfl, hrsp, hlen⟩
    · exact absurd hlast List.not_mem_nil
    rw [List.mem_singleton.mp hlast]
    refine ⟨hlen, ?_⟩
    rcases hrsp with hresponse | herror
    · have htable (opcode : Opcode) (code : ℕ) (h : opcode.response = some code) :
          getOpType (UInt8.ofNat code) =
            if code = btAttOpHandleValNot then AttOpType.not else .rsp := by
        cases opcode <;> first | exact absurd h.symm (Option.some_ne_none code) |
          (rw [← Option.some.inj h]; rfl)
      exact htable _ _ hresponse
    · rw [herror.1]
      rfl

theorem performAll_append {κ δ : Type*} (att : Bearer κ δ) (calls calls' : List (AttCall κ δ)) :
    (att.performAll (calls ++ calls')).2 = ((att.performAll calls).2.performAll calls').2 := by
  induction calls generalizing att with
  | nil => rfl
  | cons call calls ih => exact ih (att.perform call).2

/-- The transmission unit stays a 16-bit number. -/
theorem handleNotify_small {i : Exchange} (h : c.attMtu < 2 ^ 16)
    (hnext : (handleNotify c i).2 = some c') : c'.attMtu < 2 ^ 16 := by
  by_cases hop : i.opcode = .mtuReq ∧ i.pdu.length = 2
  · have heq : (exchangeMtuCb c btAttOpMtuReq i.pdu).2 = c' := by
      simp only [handleNotify, hop.1] at hnext
      exact Option.some.inj hnext
    have hle : getLe16 i.pdu < 2 ^ 16 := by
      have hlt := leNat_lt (i.pdu.take 2)
      rwa [List.length_take, hop.2] at hlt
    rw [← heq, exchangeMtuCb, if_neg (not_not_intro hop.2)]
    simp only [btAttDefaultLeMtu]
    omega
  · rw [handleNotify_attMtu hnext hop]
    exact h

/-- A handler queues its PDUs on the bearer, and sets the transmission unit of
    the bearer to its own. -/
theorem upcall_handler (h : Attached w c) {i : Exchange} (hi : Received c i)
    (hnext : (handleNotify c i).2 = some c') (opcode : UInt8) :
    ∃ att events, w.upcall gattLayer i.toEnv (.notify (.handler i.opcode) opcode i.pdu) =
        (events, ⟨{ att with mtu := c'.attMtu }, some c'⟩) ∧
      events.filterMap BearerEvent.asWire = [] ∧ Queued w.att att (handleNotify c i).1 := by
  have hqueued : Queued w.att (w.att.performAll
      ((handleNotify c i).1.filterMap Event.asCall)).2 (handleNotify c i).1 := by
    refine performAll_queued h.io h.localSign (h.mtu ▸ h.small) ?_
    rw [h.mtu]
    exact handleNotify_sendable h.ready hi hnext
  -- What it does to the transmission unit, the bearer does after it.
  have hset : ∃ calls, gattLayer.react i.toEnv w.upper w.att
      (.notify (.handler i.opcode) opcode i.pdu) =
        (some c', (handleNotify c i).1.filterMap Event.asCall ++ calls) ∧
      ∀ att : ServerBearer, att.mtu = c.attMtu →
        (att.performAll calls).2 = { att with mtu := c'.attMtu } := by
    refine ⟨(if i.opcode = .mtuReq ∧ i.pdu.length = 2 then some c'.attMtu else none).toList.map
      .setMtu, ?_, fun att hmtu => ?_⟩
    · rw [h.upper, gattLayer]
      simp only [dif_pos i.size]
      rw [hnext, Option.map_some]
    · by_cases hop : i.opcode = .mtuReq ∧ i.pdu.length = 2
      · have hready := (handleNotify_spec h.ready hi.security hi.fits).2 c' hnext
        rw [if_pos hop]
        exact if_neg (Nat.not_lt.mpr hready.mtu)
      · rw [if_neg hop, handleNotify_attMtu hnext hop, ← hmtu]
        rfl
  rcases hset with ⟨calls, hreact, hset⟩
  refine ⟨(w.att.performAll ((handleNotify c i).1.filterMap Event.asCall)).2, .upcall
    (.notify (.handler i.opcode) opcode i.pdu) :: (w.att.performAll
      ((handleNotify c i).1.filterMap Event.asCall ++ calls)).1, ?_, ?_, hqueued⟩
  · rw [Endpoint.upcall, hreact]
    refine Prod.ext rfl ?_
    simp only [performAll_append]
    rw [hset _ (hqueued.mtu.trans h.mtu)]
  · rw [List.filterMap_cons_none (by rfl)]
    exact asWire_performAll _ _

end Layer

section Handlers

variable {w : Endpoint (Option Connection) ServerCallback Empty} {c c' : Connection}

/-- Only the handlers that match are called. -/
theorem notifyAll_filter {ε σ κ δ : Type*} (U : UpperLayer ε σ κ δ) (env : ε)
    (w : Endpoint σ κ δ) (opcode : UInt8) (pdu : List UInt8) (list : List (AttNotify κ δ)) :
    w.notifyAll U env opcode pdu list =
      w.notifyAll U env opcode pdu (list.filter fun n => opcodeMatch n.opcode opcode) := by
  induction list generalizing w with
  | nil => rfl
  | cons notify list ih =>
      rw [Endpoint.notifyAll, List.filter_cons]
      by_cases hmatch : opcodeMatch notify.opcode opcode = true
      · rw [if_neg (not_not_intro hmatch), if_pos hmatch, Endpoint.notifyAll,
          if_neg (not_not_intro hmatch)]
        simp only
        rw [ih]
      · rw [if_pos hmatch, if_neg hmatch]
        exact ih w

theorem opcode_of_ofByte {opcode : UInt8} {o : Opcode} (h : Opcode.ofByte opcode = some o) :
    opcode = UInt8.ofNat o.code := by
  have hfound := List.find?_some h
  exact (of_decide_eq_true hfound).symm

/-- For an opcode of the server one handler is called. -/
theorem filter_handler (h : Attached w c) (o : Opcode) :
    ∃ n, (w.att.notifyList.filter fun n => opcodeMatch n.opcode (UInt8.ofNat o.code)) = [n] ∧
      n.callback = .handler o := by
  have hmap : (w.att.notifyList.filter fun n =>
      opcodeMatch n.opcode (UInt8.ofNat o.code)).map (fun n => (n.opcode, n.callback)) =
        (Opcode.all.map fun o => (UInt8.ofNat o.code, ServerCallback.handler o)).filter fun n =>
          opcodeMatch n.1 (UInt8.ofNat o.code) := by
    rw [← h.notifyList, List.filter_map]
    rfl
  have hone : ((Opcode.all.map fun o => (UInt8.ofNat o.code, ServerCallback.handler o)).filter
      fun n => opcodeMatch n.1 (UInt8.ofNat o.code)) = [(UInt8.ofNat o.code, .handler o)] := by
    cases o <;> rfl
  rw [hone] at hmap
  rcases List.map_eq_singleton_iff.mp hmap with ⟨n, hn, heq⟩
  exact ⟨n, hn, congrArg Prod.snd heq⟩

/-- For any other opcode none is. -/
theorem filter_none (h : Attached w c) {opcode : UInt8} (hopcode : Opcode.ofByte opcode = none) :
    (w.att.notifyList.filter fun n => opcodeMatch n.opcode opcode) = [] := by
  have hmap : (w.att.notifyList.filter fun n => opcodeMatch n.opcode opcode).map
      (fun n => (n.opcode, n.callback)) =
        (Opcode.all.map fun o => (UInt8.ofNat o.code, ServerCallback.handler o)).filter fun n =>
          opcodeMatch n.1 opcode := by
    rw [← h.notifyList, List.filter_map]
    rfl
  have hnone : ((Opcode.all.map fun o => (UInt8.ofNat o.code, ServerCallback.handler o)).filter
      fun n => opcodeMatch n.1 opcode) = [] := by
    refine List.filter_eq_nil_iff.mpr fun n hn => ?_
    rcases List.mem_map.mp hn with ⟨o, ho, rfl⟩
    have hall : (UInt8.ofNat o.code).toNat ≠ btAttAllRequests := by
      cases o <;> decide
    have hother := List.find?_eq_none.mp hopcode o ho
    rw [decide_eq_true_eq] at hother
    rw [opcodeMatch, decide_eq_true_eq]
    rintro (⟨hzero, _⟩ | heq)
    · exact hall hzero
    · exact hother heq
  rw [hnone] at hmap
  exact List.map_eq_nil_iff.mp hmap

/-- A PDU with a handler is handled. -/
theorem handleNotify_served (h : Attached w c) {i : Exchange} (hi : Received c i)
    (hnext : (Wallclock.handleNotify c i).2 = some c') :
    ∃ att events, w.handleNotify gattLayer i.toEnv (UInt8.ofNat i.opcode.code) i.pdu =
        (events, ⟨{ att with mtu := c'.attMtu }, some c'⟩) ∧
      events.filterMap BearerEvent.asWire = [] ∧
      Queued w.att att (Wallclock.handleNotify c i).1 := by
  rcases filter_handler h i.opcode with ⟨n, hn, hcallback⟩
  rcases upcall_handler h hi hnext (UInt8.ofNat i.opcode.code) with ⟨att, events, heq, hwire, hq⟩
  have hsigned : isSigned (UInt8.ofNat i.opcode.code) = false := by
    cases i.opcode <;> rfl
  have hmem : n ∈ w.att.notifyList.filter fun n =>
      opcodeMatch n.opcode (UInt8.ofNat i.opcode.code) := by
    rw [hn]
    exact List.mem_singleton.mpr rfl
  rcases List.mem_filter.mp hmem with ⟨hlist, hmatch⟩
  have hfound : (w.att.notifyList.any fun n =>
      opcodeMatch n.opcode (UInt8.ofNat i.opcode.code)) = true :=
    List.any_eq_true.mpr ⟨n, hlist, hmatch⟩
  refine ⟨att, events, ?_, hwire, hq⟩
  rw [Endpoint.handleNotify]
  simp only [hsigned, Bool.false_eq_true, false_and, decide_false, if_false, hfound]
  rw [notifyAll_filter, hn, Endpoint.notifyAll, if_neg (not_not_intro hmatch), hcallback, heq]
  simp only [Endpoint.notifyAll, Endpoint.afterNotify, not_true_eq_false, false_and, if_false,
    List.append_nil]

/-- A command without a handler is ignored. -/
theorem handleNotify_unserved (h : Attached w c) {opcode : UInt8} (env : Env) (pdu : List UInt8)
    (hopcode : Opcode.ofByte opcode = none) (hcmd : getOpType opcode = .cmd) :
    w.handleNotify gattLayer env opcode pdu = ([], w) := by
  have hnone := filter_none h hopcode
  have hall (pdu : List UInt8) :
      w.notifyAll gattLayer env opcode pdu w.att.notifyList = ([], w) := by
    rw [notifyAll_filter, hnone]
    rfl
  rw [Endpoint.handleNotify]
  simp only
  split
  · rfl
  · simp only [hall, Endpoint.afterNotify, hcmd, ne_eq, not_true_eq_false, and_false, if_false,
      List.append_nil]

end Handlers

/-- The PDU of an input, if a handler is registered for it. -/
def BearerInput.asExchange : BearerInput Env ServerCallback Empty → Option Exchange
  | .readable env _ (opcode :: pdu) =>
    if size : 1 + pdu.length < 2 ^ 16 then
      (Opcode.ofByte opcode).map fun o => { env with opcode := o, pdu, size }
    else none
  | _ => none

/-- A client that has the answer to its last request before it sends the next
    one, and sends nothing but requests and commands, on a link that delivers.
    `clock_command` does not end the process. -/
inductive Polite (w : Endpoint (Option Connection) ServerCallback Empty) :
    BearerInput Env ServerCallback Empty → Prop
  | handled (env : Env) (link : Link) (opcode : UInt8) (i : Exchange)
      (hopcode : Opcode.ofByte opcode = some i.opcode) (henv : i.toEnv = env)
      (hreceived : ∀ c, w.upper = some c → Received c i ∧ (handleNotify c i).2 ≠ none)
      (hwait : i.opcode ≠ .writeCmd → ∀ op ∈ w.att.writeQueue, op.type ≠ .rsp) :
      Polite w (.readable env link (opcode :: i.pdu))
  | ignored (env : Env) (link : Link) (opcode : UInt8) (pdu : List UInt8)
      (hopcode : Opcode.ofByte opcode = none) (hcmd : getOpType opcode = .cmd) :
      Polite w (.readable env link (opcode :: pdu))
  | writable (env : Env) : Polite w (.writable env true)

section Steps

variable {w : Endpoint (Option Connection) ServerCallback Empty} {c c' : Connection}

/-- What a handler leaves, the bearer and the server go on with. -/
theorem Attached.next (h : Attached w c) {i : Exchange} (hi : Received c i)
    (hnext : (handleNotify c i).2 = some c') {att : ServerBearer} {events : List Event}
    (hq : Queued w.att att events) : Attached ⟨{ att with mtu := c'.attMtu }, some c'⟩ c' where
  upper := rfl
  ready := (handleNotify_spec h.ready hi.security hi.fits).2 c' hnext
  io := hq.io.trans h.io
  reading := hq.reading.trans h.reading
  mtu := rfl
  small := handleNotify_small h.small hnext
  localSign := hq.localSign.trans h.localSign
  notifyList := (congrArg _ hq.notifyList).trans h.notifyList
  reqQueue := hq.reqQueue.trans h.reqQueue
  indQueue := hq.indQueue.trans h.indQueue
  queued := fun op hop => (hq.types op hop).elim (h.queued op) id

/-- A request or a command of a polite client is handled. -/
theorem step_handled (h : Serves w c) {env : Env} (link : Link) {opcode : UInt8} {i : Exchange}
    (hopcode : Opcode.ofByte opcode = some i.opcode) (henv : i.toEnv = env)
    (hi : Received c i) (hnext : (handleNotify c i).2 = some c')
    (hwait : i.opcode ≠ .writeCmd → ∀ op ∈ w.att.writeQueue, op.type ≠ .rsp) :
    ∃ w', ((bearerMachine gattLayer).step w (.readable env link (opcode :: i.pdu))).2 = some w' ∧
      Serves w' c' ∧
      ((bearerMachine gattLayer).step w (.readable env link (opcode :: i.pdu))).1.filterMap
        BearerEvent.asWire ++ w'.att.writeQueue.map AttSendOp.asWire =
          w.att.writeQueue.map AttSendOp.asWire ++ (handleNotify c i).1.filterMap Event.asWire := by
  have htake : (opcode :: i.pdu).take w.att.mtu = opcode :: i.pdu := by
    refine List.take_of_length_le ?_
    rw [h.mtu, List.length_cons, Nat.add_comm]
    exact hi.read
  have hcode := opcode_of_ofByte hopcode
  have htype : getOpType opcode = if i.opcode = .writeCmd then .cmd else .req := by
    rw [hcode]
    cases i.opcode <;> rfl
  have hanswers := (handleNotify_answer h.ready hi hnext).length_eq
  -- The handler runs with the flag that the bearer has set, or not.
  have hhandled (v : Endpoint (Option Connection) ServerCallback Empty) (hv : Attached v c)
      (hread : w.canReadData gattLayer env link (opcode :: i.pdu) =
        (.received (opcode :: i.pdu) :: (v.handleNotify gattLayer env opcode i.pdu).1,
          (v.handleNotify gattLayer env opcode i.pdu).2))
      (hqueue : v.att.writeQueue = w.att.writeQueue)
      (hflag : w.att.writeQueue.countP (·.type = .rsp) +
        ([i].filter fun i => i.opcode ≠ .writeCmd).length = if v.att.inReq then 1 else 0) :
      ∃ w', ((bearerMachine gattLayer).step w (.readable env link (opcode :: i.pdu))).2 =
          some w' ∧ Serves w' c' ∧
        ((bearerMachine gattLayer).step w (.readable env link (opcode :: i.pdu))).1.filterMap
          BearerEvent.asWire ++ w'.att.writeQueue.map AttSendOp.asWire =
            w.att.writeQueue.map AttSendOp.asWire ++
              (handleNotify c i).1.filterMap Event.asWire := by
    rcases handleNotify_served hv hi hnext with ⟨att, events, heq, hwire, hq⟩
    rw [← hcode, henv] at heq
    rw [heq] at hread
    simp only [bearerMachine, h.io, h.reading, and_self, if_true, hread, Prod.map, id]
    refine ⟨_, rfl, ⟨hv.next hi hnext hq, ?_⟩, ?_⟩
    · show att.writeQueue.countP (·.type = .rsp) = if att.inReq then 1 else 0
      rw [hq.count, hqueue, hq.inReq, ← hanswers]
      exact hflag
    · rw [List.filterMap_cons_none (by rfl), hwire, List.nil_append, ← hqueue]
      exact hq.wire
  by_cases hcmd : i.opcode = .writeCmd
  · rw [if_pos hcmd] at htype
    refine hhandled w h.toAttached ?_ rfl ?_
    · rw [Endpoint.canReadData, htake]
      simp only [htype]
    · simp only [hcmd, List.filter_cons, ne_eq, not_true_eq_false, decide_false, if_false,
        Bool.false_eq_true, List.filter_nil, List.length_nil, Nat.add_zero]
      exact h.inReq
  · rw [if_neg hcmd] at htype
    have hzero : w.att.writeQueue.countP (·.type = .rsp) = 0 :=
      List.countP_eq_zero.mpr fun op hop => by
        rw [decide_eq_true_eq]
        exact hwait hcmd op hop
    -- As no response is queued, no request is in progress.
    have hfree : w.att.inReq = false := by
      have hinReq := h.inReq
      rw [hzero] at hinReq
      cases hflag : w.att.inReq with
      | false => rfl
      | true =>
          rw [hflag] at hinReq
          exact absurd hinReq Nat.zero_ne_one
    refine hhandled { w with att := { w.att with inReq := true } } { h.toAttached with } ?_ rfl ?_
    · rw [Endpoint.canReadData, htake]
      simp only [htype, hfree, Bool.false_eq_true, if_false]
    · simp only [hzero, List.filter_cons, hcmd, ne_eq, not_false_eq_true, decide_true, if_true,
        List.filter_nil, List.length_singleton, Nat.zero_add]

/-- What was queued first is sent, if anything was. -/
theorem step_writable (h : Serves w c) (env : Env) :
    ∃ w', ((bearerMachine gattLayer).step w (.writable env true)).2 = some w' ∧ Serves w' c ∧
      ((bearerMachine gattLayer).step w (.writable env true)).1.filterMap BearerEvent.asWire ++
        w'.att.writeQueue.map AttSendOp.asWire = w.att.writeQueue.map AttSendOp.asWire := by
  by_cases hactive : w.att.writerActive = true
  swap
  · simp only [bearerMachine, hactive, and_false, Bool.false_eq_true, if_false]
    exact ⟨w, rfl, h, rfl⟩
  simp only [bearerMachine, h.io, hactive, and_self, if_true, Prod.map, id]
  have hcount := h.inReq
  rcases hqueue : w.att.writeQueue with _ | ⟨op, rest⟩
  · -- The other queues are empty, too.
    have hpick : w.att.pickNextSendOp = none := by
      simp only [pickNextSendOp, hqueue, h.reqQueue, h.indQueue]
      cases w.att.pendingReq <;> cases w.att.pendingInd <;> rfl
    simp only [Endpoint.canWriteData, hpick]
    exact ⟨_, rfl, { h with }, by rw [hqueue]; rfl⟩
  have hpick : w.att.pickNextSendOp = some (op, { w.att with writeQueue := rest }) := by
    simp only [pickNextSendOp, hqueue]
  have hrest (o : AttSendOp ServerCallback Empty) (ho : o ∈ rest) : o.type = .rsp ∨ o.type = .not :=
    h.queued o (hqueue ▸ List.mem_cons_of_mem op ho)
  have hfreed : (destroyAttSendOp op).filterMap BearerEvent.asWire = [] := by
    rw [destroyAttSendOp, destroyEvents]
    cases op.destroy with
    | none => rfl
    | some d => exact d.elim
  rw [hqueue, List.countP_cons] at hcount
  simp only [Endpoint.canWriteData, hpick, not_true_eq_false, if_false]
  rcases h.queued op (hqueue ▸ List.mem_cons_self) with hrsp | hnot
  · -- A response ends the request in progress.
    have hflag : rest.countP (·.type = .rsp) = 0 := by
      simp only [hrsp, decide_true, if_true] at hcount
      split at hcount <;> omega
    simp only [hrsp]
    refine ⟨_, rfl, ⟨{ h.toAttached with queued := hrest }, hflag⟩, ?_⟩
    rw [List.filterMap_cons, hfreed]
    rfl
  · have hflag : rest.countP (·.type = .rsp) = if w.att.inReq then 1 else 0 := by
      rw [← hcount, hnot]
      rfl
    simp only [hnot]
    refine ⟨_, rfl, ⟨{ h.toAttached with queued := hrest }, hflag⟩, ?_⟩
    rw [List.filterMap_cons, hfreed]
    rfl

/-- The server on its bearer refines its handlers, up to the PDUs that wait. -/
theorem served_buffers : Buffers (bearerMachine gattLayer) gattMachine BearerInput.asExchange
    Serves Polite (fun w => w.att.writeQueue.map AttSendOp.asWire) BearerEvent.asWire
    Event.asWire where
  step w c input k h hpolite hsel := by
    cases hpolite with
    | handled env link opcode i hopcode henv hreceived hwait =>
        have hk : k = i := by
          simp only [BearerInput.asExchange, dif_pos i.size, hopcode, Option.map_some,
            Option.some.injEq] at hsel
          rw [← hsel, ← henv]
        rw [hk]
        rcases hreceived c h.upper with ⟨hi, hsome⟩
        rcases Option.ne_none_iff_exists'.mp hsome with ⟨c', hnext⟩
        rcases step_handled h link hopcode henv hi hnext hwait with ⟨w', hw', hserves, hwire⟩
        exact ⟨w', c', hw', hnext, hserves, hwire⟩
    | ignored env link opcode pdu hopcode hcmd =>
        simp only [BearerInput.asExchange, hopcode, Option.map_none, dite_eq_ite, ite_self,
          reduceCtorEq] at hsel
    | writable env => exact absurd hsel.symm (Option.some_ne_none k)
  still w c input h hpolite hsel := by
    cases hpolite with
    | handled env link opcode i hopcode _ _ _ =>
        simp only [BearerInput.asExchange, dif_pos i.size, hopcode, Option.map_some,
          reduceCtorEq] at hsel
    | ignored env link opcode pdu hopcode hcmd =>
        have hmtu : 23 ≤ w.att.mtu := h.ready.mtu.trans (le_of_eq h.mtu.symm)
        rcases Nat.exists_eq_succ_of_ne_zero (by omega : w.att.mtu ≠ 0) with ⟨n, hn⟩
        have hread : w.canReadData gattLayer env link (opcode :: pdu) =
            ([.received (opcode :: pdu.take n)], w) := by
          rw [Endpoint.canReadData, hn, List.take_succ_cons]
          simp only [hcmd, handleNotify_unserved h.toAttached env _ hopcode hcmd]
        simp only [bearerMachine, h.io, h.reading, and_self, if_true, hread, Prod.map, id]
        exact ⟨w, rfl, h, rfl⟩
    | writable env => exact step_writable h env

end Steps

/-- Registering handlers changes the list of handlers only, and the numbers. -/
theorem register_handlers (os : List Opcode) (att : ServerBearer) (hio : att.io = true) :
    ∃ notifyList nextRegId,
      os.foldl (fun att o =>
        (att.btAttRegister (UInt8.ofNat o.code) (.handler o) none).2) att =
          { att with notifyList, nextRegId } ∧
      (notifyList.map fun n => (n.opcode, n.callback)) =
        (att.notifyList.map fun n => (n.opcode, n.callback)) ++
          os.map fun o => (UInt8.ofNat o.code, ServerCallback.handler o) := by
  induction os generalizing att with
  | nil => exact ⟨att.notifyList, att.nextRegId, rfl, (List.append_nil _).symm⟩
  | cons o os ih =>
      have hregister : ∃ id, (att.btAttRegister (UInt8.ofNat o.code) (.handler o) none).2 =
          { att with
            nextRegId := id + 1
            notifyList := att.notifyList ++ [⟨id, UInt8.ofNat o.code, .handler o, none⟩] } := by
        refine ⟨if att.nextRegId < 1 then 1 else att.nextRegId, ?_⟩
        rw [Bearer.btAttRegister, if_neg (by rw [hio]; exact fun h => h rfl)]
      rcases hregister with ⟨id, hregister⟩
      rw [List.foldl_cons, hregister]
      rcases ih { att with
        nextRegId := id + 1
        notifyList := att.notifyList ++ [⟨id, UInt8.ofNat o.code, .handler o, none⟩] } hio
        with ⟨list, next, heq, hmap⟩
      refine ⟨list, next, heq, ?_⟩
      rw [hmap, List.map_append, List.append_assoc]
      rfl

/-- A new connection serves. -/
theorem serves_fresh (ioOnL2cap : Bool) (crypto : Option AfAlg) {globals : Globals} {mtu : ℕ}
    {c : Connection} (hconnect : connect globals mtu = some c) :
    Serves (.served ioOnL2cap crypto c) c := by
  have hmtu : c.attMtu = 23 := by
    rcases populateDb_layout with ⟨db, hdb, _⟩
    rw [connect, hdb, Option.bind_eq_bind, Option.bind_some, Option.some.injEq] at hconnect
    rw [← hconnect]
    rfl
  let att : ServerBearer := ((Bearer.new ioOnL2cap btAttDefaultLeMtu crypto).btAttRegisterDisconnect
    (some .attDisconnectCb) none).2
  rcases register_handlers Opcode.all att rfl with ⟨list, next, heq, hmap⟩
  have hserved : Endpoint.served ioOnL2cap crypto c =
      ⟨{ att with notifyList := list, nextRegId := next }, some c⟩ :=
    congrArg (fun att => (⟨att, some c⟩ : Endpoint (Option Connection) ServerCallback Empty)) heq
  rw [hserved]
  exact ⟨⟨rfl, ready_connect hconnect, rfl, rfl, hmtu.symm, by omega, rfl, hmap, rfl, rfl,
    fun op hop => absurd hop List.not_mem_nil⟩, rfl⟩

/-- With a polite client, what is on the wire and what waits for it are the PDUs
    that the handlers queue for the client's PDUs, in order; the two copies of
    the transmission unit agree; and the bearer never shuts the link down. -/
theorem served_refines (ioOnL2cap : Bool) (crypto : Option AfAlg) (globals : Globals) (mtu : ℕ)
    (c : Connection) (is : List (BearerInput Env ServerCallback Empty))
    (hconnect : connect globals mtu = some c)
    (hpolite : (bearerMachine gattLayer).Steps Polite (.served ioOnL2cap crypto c) is) :
    let r := (bearerMachine gattLayer).run (.served ioOnL2cap crypto c) is
    let pdus := is.filterMap BearerInput.asExchange
    ∃ w c', r.2 = some w ∧ w.upper = some c' ∧ gattMachine.Reaches c pdus c' ∧
      r.1.filterMap BearerEvent.asWire ++ w.att.writeQueue.map AttSendOp.asWire =
        (gattMachine.run c pdus).1.filterMap Event.asWire ∧
      w.att.mtu = c'.attMtu ∧ .shutdown ∉ r.1 := by
  intro r pdus
  rcases served_buffers.reaches hpolite (serves_fresh ioOnL2cap crypto hconnect)
    with ⟨w, c', hw, hc, hserves, hwire⟩
  have hwire : r.1.filterMap BearerEvent.asWire ++ w.att.writeQueue.map AttSendOp.asWire =
      (gattMachine.run c pdus).1.filterMap Event.asWire := hwire
  refine ⟨w, c', hw, hserves.upper, hc, hwire, hserves.mtu, fun hshutdown => ?_⟩
  -- The handlers put nothing but PDUs on the wire.
  have hmem : Wire.shutdown ∈ (gattMachine.run c pdus).1.filterMap Event.asWire :=
    hwire ▸ List.mem_append_left _ (List.mem_filterMap.mpr ⟨_, hshutdown, rfl⟩)
  rcases List.mem_filterMap.mp hmem with ⟨e, _, he⟩
  cases e with
  | queued opcode pdu => exact Wire.noConfusion (Option.some.inj he)
  | _ => exact absurd he.symm (Option.some_ne_none _)

theorem served_refines_timeRequest : ∃ c, connect (Globals.init 0) 0 = some c ∧
    let is : List (BearerInput Env ServerCallback Empty) :=
      [.readable Env.sample ⟨1, true⟩ [0x12, 18, 0, 0x02], .writable Env.sample true]
    let r := (bearerMachine gattLayer).run (.served true none c) is
    let pdus := is.filterMap BearerInput.asExchange
    ∃ w c', r.2 = some w ∧ w.upper = some c' ∧ gattMachine.Reaches c pdus c' ∧
      r.1.filterMap BearerEvent.asWire ++ w.att.writeQueue.map AttSendOp.asWire =
        (gattMachine.run c pdus).1.filterMap Event.asWire ∧
      w.att.mtu = c'.attMtu ∧ .shutdown ∉ r.1 := by
  rcases timeRequest_received with ⟨c, c', hconnect, hreceived, hnext⟩
  refine ⟨c, hconnect, served_refines true none (Globals.init 0) 0 c _ hconnect ⟨?_, ?_⟩⟩
  · -- Nothing has been queued yet.
    refine Polite.handled Env.sample ⟨1, true⟩ 0x12 .timeRequest rfl rfl ?_ ?_
    · intro d hd
      rw [← Option.some.inj hd, hnext]
      exact ⟨hreceived, Option.some_ne_none c'⟩
    · have hqueue : (Endpoint.served true none c).att.writeQueue = [] := rfl
      rw [hqueue]
      exact fun _ op hop => absurd hop List.not_mem_nil
  · exact fun w _ => ⟨Polite.writable Env.sample, fun _ _ => trivial⟩

end Wallclock
