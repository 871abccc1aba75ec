import Wallclock.Theory.Bearer

/-!
# What a Call of the Transport Does

A call of the transport either accepts an operation or accepts nothing, and
then the bearer has less than before. `Effect` says so once for all calls, and
what a law needs of the transport follows from these two cases.

A callback may make any number of calls. A `Law` relates a bearer, what
becomes visible, and the bearer after it; it composes, and holds of each call
that the layer above may make. So it holds of all the calls of a callback, and
of the functions that do nothing else to the bearer than call callbacks.

## Main definitions

* `AttCall.Short`: A call that sends no PDU whose length could wrap.
* `signatureLen`: The bytes of a signature.
* `Accepts`: An operation that `bt_att_send` accepts.
* `BearerEvent.Idle`, `Less`: What a call does that accepts none.
* `Effect`: What a call does.
* `UpperLayer.Calls`: The calls that a layer makes.
* `Law`: What a call keeps.

## Theorems

* `length_btCryptoSignAtt`, `signatureLen_le`, `encodePdu_take`,
  `encodePdu_length`, `encodePdu_head`: The PDUs that are sent.
* `wakeupWriter_cases`, `mtu_wakeupWriter`: The writer is woken, or not.
* `Less.refl`, `Less.wakeupWriter`, `cancelPending_isSome`, `idle_destroyEvents`,
  `idle_free`, `idle_cancelPending`, `removeOp_sublist`: Lesser bearers.
* `calls_any`, `plain_idle`, `plain_free`, `btAttUnref_events`: Plain events.
* `btAttSend_effect`, `btAttCancel_effect`, `btAttCancelAll_effect`,
  `btAttUnregisterDisconnect_effect`, `btAttSetSecurity_less`,
  `perform_effect`: What the calls do.
* `Law.performAll`, `Law.afterNotify`, `Law.upcall`, `Law.respond`,
  `Law.discAll`, `Law.endReq`, `Law.endInd`, `Law.notifyAll`,
  `Law.handleNotify`, `Law.disconnHandlers`: What callbacks keep.
* `Law.change`, `Law.wakeupWriter`, `Law.discQueue`, `Law.finishRsp`,
  `Law.handleRsp`, `Law.handleConf`, `Law.expire`, `Law.timeoutCb`,
  `Law.disconnectCb`, `Law.canReadData`, `Law.canWriteData`, `Law.step`: What the
  steps keep.
-/

namespace Wallclock

open ByteCodec

variable {ε σ κ δ : Type*}

/-- An event of a call that accepts no operation. -/
def BearerEvent.Idle : BearerEvent κ δ → Prop
  | .freed _ => True
  | .destroyed _ => True
  | .overflow => True
  | _ => False

/-- The call sends no PDU whose length could wrap. -/
def AttCall.Short : AttCall κ δ → Prop
  | .send _ pdu _ _ _ => 1 + btAttSignatureLen + pdu.length < 2 ^ 16
  | _ => True

namespace Bearer

/-- An operation that `bt_att_send` accepts. -/
structure Accepts (att : Bearer κ δ) (op : AttSendOp κ δ) : Prop where
  io : att.io = true
  id : op.id = if att.nextSendId < 1 then 1 else att.nextSendId
  type : op.type = getOpType op.opcode
  known : op.type ≠ .unknown
  callback : op.callback.isSome = true ↔ op.type.Elicits
  length : op.pdu.length ≤ att.mtu

/-- What a call that accepts no operation leaves of a bearer. -/
structure Less (att att' : Bearer κ δ) : Prop where
  io : att'.io = att.io
  reading : att'.reading = att.reading
  inReq : att'.inReq = att.inReq
  nextSendId : att'.nextSendId = att.nextSendId
  crypto : att'.crypto = att.crypto
  notifyList : att'.notifyList = att.notifyList
  reqQueue : att'.reqQueue.Sublist att.reqQueue
  indQueue : att'.indQueue.Sublist att.indQueue
  writeQueue : att'.writeQueue.Sublist att.writeQueue
  pendingReq : att'.pendingReq.isSome = att.pendingReq.isSome
  pendingInd : att'.pendingInd.isSome = att.pendingInd.isSome
  writerActive : att.writerActive = true → att'.writerActive = true

/-- What a call does. A PDU that is accepted starts with its opcode, unless its
    length wraps. -/
inductive Effect (att : Bearer κ δ) (call : AttCall κ δ) :
    List (BearerEvent κ δ) → Bearer κ δ → Prop
  | accepts (es : List (BearerEvent κ δ)) (op : AttSendOp κ δ) (hes : ∀ e ∈ es, e.Idle)
      (h : att.Accepts op) (hhead : call.Short → op.pdu.head? = some op.opcode) :
      Effect att call (es ++ [.accepted op])
        ({ att with nextSendId := op.id + 1 }.enqueue op).wakeupWriter
  | less (es : List (BearerEvent κ δ)) (att' : Bearer κ δ) (hes : ∀ e ∈ es, e.Idle)
      (h : att.Less att')
      (hmtu : att'.mtu = att.mtu ∨ call = .setMtu att'.mtu ∧ btAttDefaultLeMtu ≤ att'.mtu) :
      Effect att call es att'

theorem length_btCryptoSignAtt {crypto : AfAlg} {key m signature : List UInt8}
    {signCnt : BitVec 32} (h : crypto.btCryptoSignAtt key m signCnt = some signature) :
    signature.length = btAttSignatureLen := by
  rcases hmac : crypto.cmacAes (swapBuf key) (swapBuf (m ++ leBytes 4 signCnt.toNat)) with _ | out
  · simp only [AfAlg.btCryptoSignAtt, hmac, Option.bind_eq_bind, Option.bind_none,
      reduceCtorEq] at h
  · have hout := crypto.length_cmacAes _ _ _ hmac
    simp only [AfAlg.btCryptoSignAtt, hmac, Option.bind_eq_bind, Option.bind_some,
      Option.some.injEq] at h
    rw [← h]
    simp only [swapBuf, List.length_take, List.length_drop, List.length_reverse,
      List.length_append, length_leBytes, hout, btAttSignatureLen]
    omega

section Encoding

variable {att : Bearer κ δ} {opcode : UInt8} {pdu bytes : List UInt8} {uninit : Uninit}

/-- The number of bytes that `encode_pdu` leaves for a signature. -/
def signatureLen (att : Bearer κ δ) (opcode : UInt8) : ℕ :=
  if att.localSign.isSome ∧ isSigned opcode then btAttSignatureLen else 0

theorem signatureLen_le (att : Bearer κ δ) (opcode : UInt8) :
    att.signatureLen opcode ≤ btAttSignatureLen := by
  unfold signatureLen
  split_ifs
  · exact le_refl _
  · exact Nat.zero_le _

/-- A PDU that is encoded begins with its opcode and is cut to the 16-bit length. -/
theorem encodePdu_take (h : (att.encodePdu opcode pdu uninit).pdu = some bytes) :
    ∃ rest : List UInt8, att.signatureLen opcode + pdu.length ≤ rest.length ∧
      bytes = (opcode :: rest).take ((1 + att.signatureLen opcode + pdu.length) % 2 ^ 16) ∧
      (1 + att.signatureLen opcode + pdu.length) % 2 ^ 16 ≤ att.mtu := by
  rw [encodePdu] at h
  change (if (1 + att.signatureLen opcode + pdu.length) % 2 ^ 16 > att.mtu then _
    else _ : Encoded).pdu = some bytes at h
  split at h
  · exact absurd h.symm (Option.some_ne_none bytes)
  rename_i hfits
  rw [gt_iff_lt, not_lt] at hfits
  simp only at h
  split at h
  · case h_1 sign crypto hsign _ =>
      split at h
      · -- The PDU is not signed.
        rename_i hsigned
        have hzero : att.signatureLen opcode = 0 := if_neg fun hs => hsigned hs.2
        exact ⟨pdu, by omega, (Option.some.inj h).symm, hfits⟩
      · split at h
        · exact absurd h.symm (Option.some_ne_none bytes)
        · split at h
          · exact absurd h.symm (Option.some_ne_none bytes)
          · case h_2 _ signCnt _ _ signature hsignature =>
              refine ⟨pdu ++ signature, ?_, (Option.some.inj h).symm, hfits⟩
              have hle := att.signatureLen_le opcode
              rw [List.length_append, length_btCryptoSignAtt hsignature]
              omega
  · refine ⟨pdu ++ (List.range (att.signatureLen opcode)).map fun i =>
      uninit.heap (1 + pdu.length + i), ?_, (Option.some.inj h).symm, hfits⟩
    rw [List.length_append, List.length_map, List.length_range, Nat.add_comm]

/-- A PDU that is encoded has the length that the MTU was compared with. -/
theorem encodePdu_length (h : (att.encodePdu opcode pdu uninit).pdu = some bytes) :
    bytes.length = (1 + att.signatureLen opcode + pdu.length) % 2 ^ 16 ∧
      bytes.length ≤ att.mtu := by
  rcases encodePdu_take h with ⟨rest, hrest, hbytes, hfits⟩
  have hlength : bytes.length = (1 + att.signatureLen opcode + pdu.length) % 2 ^ 16 := by
    have hmod := Nat.mod_le (1 + att.signatureLen opcode + pdu.length) (2 ^ 16)
    rw [hbytes, List.length_take, List.length_cons, Nat.min_eq_left (by omega)]
  exact ⟨hlength, hlength ▸ hfits⟩

/-- Unless the length wraps, the opcode is in it. -/
theorem encodePdu_head (h : (att.encodePdu opcode pdu uninit).pdu = some bytes)
    (hshort : 1 + btAttSignatureLen + pdu.length < 2 ^ 16) : bytes.head? = some opcode := by
  rcases encodePdu_take h with ⟨rest, _, hbytes, _⟩
  have hle := att.signatureLen_le opcode
  rw [hbytes, Nat.mod_eq_of_lt (by omega), Nat.add_assoc, Nat.add_comm 1, List.take_succ_cons]
  rfl

end Encoding

/-- The writer is woken if there is a link, or stays as it is. -/
theorem wakeupWriter_cases (att : Bearer κ δ) :
    att.wakeupWriter = att ∨
      att.io = true ∧ att.wakeupWriter = { att with writerActive := true } := by
  rw [wakeupWriter]
  split
  · exact Or.inl rfl
  · split
    · exact Or.inl rfl
    · split
      · exact Or.inl rfl
      · case isFalse h => exact Or.inr ⟨not_not.mp h, rfl⟩

theorem Less.refl (att : Bearer κ δ) : att.Less att :=
  ⟨rfl, rfl, rfl, rfl, rfl, rfl, List.Sublist.refl _, List.Sublist.refl _, List.Sublist.refl _,
    rfl, rfl, id⟩

/-- A bearer whose writer is woken has what it had. -/
theorem Less.wakeupWriter {att att' : Bearer κ δ} (h : att.Less att') :
    att.Less att'.wakeupWriter := by
  rcases wakeupWriter_cases att' with heq | ⟨_, heq⟩
  · rw [heq]
    exact h
  · rw [heq]
    exact ⟨h.io, h.reading, h.inReq, h.nextSendId, h.crypto, h.notifyList, h.reqQueue, h.indQueue,
      h.writeQueue, h.pendingReq, h.pendingInd, fun _ => rfl⟩

theorem mtu_wakeupWriter (att : Bearer κ δ) : att.wakeupWriter.mtu = att.mtu := by
  rcases wakeupWriter_cases att with heq | ⟨_, heq⟩ <;> rw [heq]

theorem cancelPending_isSome (op : Option (AttSendOp κ δ)) :
    (cancelPending op).2.isSome = op.isSome := by
  cases op <;> rfl

theorem idle_destroyEvents (destroy : Option δ) :
    ∀ e ∈ (destroyEvents destroy : List (BearerEvent κ δ)), e.Idle := by
  intro e he
  rcases List.mem_map.mp he with ⟨d, _, rfl⟩
  trivial

theorem idle_cancelPending (op : Option (AttSendOp κ δ)) :
    ∀ e ∈ (cancelPending op).1, e.Idle := by
  cases op with
  | none => exact fun e he => absurd he List.not_mem_nil
  | some op => exact idle_destroyEvents op.destroy

theorem idle_free (op : AttSendOp κ δ) : ∀ e ∈ destroyAttSendOp op, e.Idle := by
  intro e he
  rcases List.mem_append.mp he with hdestroy | hfreed
  · exact idle_destroyEvents op.destroy e hdestroy
  · rw [List.mem_singleton.mp hfreed]
    trivial

theorem removeOp_sublist {id : BitVec 32} {queue rest : List (AttSendOp κ δ)}
    {op : AttSendOp κ δ} (h : removeOp id queue = some (op, rest)) : rest.Sublist queue := by
  rcases removeOp_split h with ⟨l, r, hqueue, hrest⟩
  rw [hqueue, hrest]
  exact (List.Sublist.refl l).append (List.sublist_cons_self op r)

variable (att : Bearer κ δ)

theorem btAttSend_effect (opcode : UInt8) (pdu : List UInt8) (callback : Option κ)
    (destroy : Option δ) (uninit : Uninit) :
    Effect att (.send opcode pdu callback destroy uninit)
      (att.btAttSend opcode pdu callback destroy uninit).1
      (att.btAttSend opcode pdu callback destroy uninit).2 := by
  have hnone : ∀ e ∈ ([] : List (BearerEvent κ δ)), e.Idle := fun e he =>
    absurd he List.not_mem_nil
  have hoverflow (b : Bool) :
      ∀ e ∈ (if b then [.overflow] else [] : List (BearerEvent κ δ)), e.Idle := by
    intro e he
    cases b with
    | false => exact absurd he List.not_mem_nil
    | true =>
        rw [List.mem_singleton.mp he]
        trivial
  rw [btAttSend]
  split
  · exact Effect.less _ _ hnone (Less.refl att) (Or.inl rfl)
  rename_i hio
  rw [createAttSendOp]
  by_cases hkind : getOpType opcode = .unknown ∨
      callback.isSome ≠ decide (getOpType opcode = .req ∨ getOpType opcode = .ind)
  · rw [if_pos hkind]
    exact Effect.less _ _ hnone (Less.refl att) (Or.inl rfl)
  rw [if_neg hkind]
  rw [not_or, not_not] at hkind
  rcases hencode : (att.encodePdu opcode pdu uninit).pdu with _ | bytes
  · simp only [hencode, Option.map_none]
    exact Effect.less _ _ (hoverflow _) (Less.refl att) (Or.inl rfl)
  · simp only [hencode, Option.map_some]
    refine Effect.accepts _ _ (hoverflow _)
      ⟨not_not.mp hio, rfl, rfl, hkind.1, ?_, (encodePdu_length hencode).2⟩
      (encodePdu_head hencode)
    change callback.isSome = true ↔ _
    rw [hkind.2, decide_eq_true_iff]
    rfl

/-- What is taken out of a queue leaves the bearer with less. -/
theorem btAttCancel_effect (id : BitVec 32) :
    Effect att (.cancel id) (att.btAttCancel id).1 (att.btAttCancel id).2 := by
  have hsame := Less.refl att
  have hnone : ∀ e ∈ ([] : List (BearerEvent κ δ)), e.Idle := fun e he =>
    absurd he List.not_mem_nil
  rw [btAttCancel]
  split
  · exact Effect.less _ _ hnone hsame (Or.inl rfl)
  split
  · exact Effect.less _ _ (idle_cancelPending _)
      { hsame with pendingReq := cancelPending_isSome att.pendingReq } (Or.inl rfl)
  split
  · exact Effect.less _ _ (idle_cancelPending _)
      { hsame with pendingInd := cancelPending_isSome att.pendingInd } (Or.inl rfl)
  split
  · case h_1 op rest hremove =>
      have hless : att.Less { att with reqQueue := rest } :=
        { hsame with reqQueue := removeOp_sublist hremove }
      exact Effect.less _ _ (idle_free op) hless.wakeupWriter (Or.inl (mtu_wakeupWriter _))
  split
  · case h_1 op rest hremove =>
      have hless : att.Less { att with indQueue := rest } :=
        { hsame with indQueue := removeOp_sublist hremove }
      exact Effect.less _ _ (idle_free op) hless.wakeupWriter (Or.inl (mtu_wakeupWriter _))
  split
  · case h_1 op rest hremove =>
      have hless : att.Less { att with writeQueue := rest } :=
        { hsame with writeQueue := removeOp_sublist hremove }
      exact Effect.less _ _ (idle_free op) hless.wakeupWriter (Or.inl (mtu_wakeupWriter _))
  · exact Effect.less _ _ hnone hsame (Or.inl rfl)

theorem btAttCancelAll_effect :
    Effect att .cancelAll att.btAttCancelAll.1 att.btAttCancelAll.2 := by
  have hidle : ∀ e ∈ att.btAttCancelAll.1, e.Idle := by
    intro e he
    rcases List.mem_append.mp he with he | hind
    · rcases List.mem_append.mp he with hqueues | hreq
      · rcases List.mem_flatMap.mp hqueues with ⟨op, _, hop⟩
        exact idle_free op e hop
      · exact idle_cancelPending _ e hreq
    · exact idle_cancelPending _ e hind
  refine Effect.less _ _ hidle ?_ (Or.inl rfl)
  exact { Less.refl att with
    reqQueue := List.nil_sublist _
    indQueue := List.nil_sublist _
    writeQueue := List.nil_sublist _
    pendingReq := cancelPending_isSome att.pendingReq
    pendingInd := cancelPending_isSome att.pendingInd }

theorem btAttUnregisterDisconnect_effect (id : BitVec 32) :
    Effect att (.unregisterDisconnect id) (att.btAttUnregisterDisconnect id).1
      (att.btAttUnregisterDisconnect id).2 := by
  have hnone : ∀ e ∈ ([] : List (BearerEvent κ δ)), e.Idle := fun e he =>
    absurd he List.not_mem_nil
  rw [btAttUnregisterDisconnect]
  split
  · exact Effect.less _ _ hnone (Less.refl att) (Or.inl rfl)
  split
  · exact Effect.less _ _ hnone (Less.refl att) (Or.inl rfl)
  · case h_2 disconn _ =>
      have hless (list : List (AttDisconn κ δ)) : att.Less { att with disconnList := list } :=
        { Less.refl att with }
      split
      · exact Effect.less _ _ hnone (hless _) (Or.inl rfl)
      · exact Effect.less _ _ (idle_destroyEvents disconn.destroy) (hless _) (Or.inl rfl)

theorem btAttSetSecurity_less (level : ℤ) (accepted : Bool) :
    att.Less (att.btAttSetSecurity level accepted).2 ∧
      (att.btAttSetSecurity level accepted).2.mtu = att.mtu := by
  rw [btAttSetSecurity]
  split
  · exact ⟨Less.refl att, rfl⟩
  · split
    · exact ⟨{ Less.refl att with }, rfl⟩
    · exact ⟨Less.refl att, rfl⟩

/-- A call accepts an operation, or leaves less. -/
theorem perform_effect (call : AttCall κ δ) :
    Effect att call (att.perform call).1 (att.perform call).2 := by
  have hnone : ∀ e ∈ ([] : List (BearerEvent κ δ)), e.Idle := fun e he =>
    absurd he List.not_mem_nil
  cases call with
  | send opcode pdu callback destroy uninit =>
      exact btAttSend_effect att opcode pdu callback destroy uninit
  | cancel id => exact btAttCancel_effect att id
  | cancelAll => exact btAttCancelAll_effect att
  | unregisterDisconnect id => exact btAttUnregisterDisconnect_effect att id
  | setMtu mtu =>
      rw [perform, btAttSetMtu]
      split
      · exact Effect.less _ _ hnone (Less.refl att) (Or.inl rfl)
      · case isFalse h =>
          exact Effect.less _ _ hnone { Less.refl att with } (Or.inr ⟨rfl, not_lt.mp h⟩)
  | setSecurity level accepted =>
      have hless := btAttSetSecurity_less att level accepted
      exact Effect.less _ _ hnone hless.1 (Or.inl hless.2)
  | setEncKeySize encSize => exact Effect.less _ _ hnone { Less.refl att with } (Or.inl rfl)
  | setLocalKey sign => exact Effect.less _ _ hnone { Less.refl att with } (Or.inl rfl)
  | setRemoteKey sign => exact Effect.less _ _ hnone { Less.refl att with } (Or.inl rfl)

end Bearer

/-- The calls that a layer makes. -/
def UpperLayer.Calls (U : UpperLayer ε σ κ δ) (Ok : AttCall κ δ → Prop) : Prop :=
  ∀ env upper att call, ∀ c ∈ (U.react env upper att call).2, Ok c

theorem calls_any (U : UpperLayer ε σ κ δ) : U.Calls fun _ => True := fun _ _ _ _ _ _ => trivial

/-- What a bearer keeps over some calls of the transport, with what becomes
    visible of them. -/
structure Law (Ok : AttCall κ δ → Prop)
    (T : Bearer κ δ → List (BearerEvent κ δ) → Bearer κ δ → Prop) : Prop where
  nil : ∀ att, T att [] att
  trans : ∀ {a b c es es'}, T a es b → T b es' c → T a (es ++ es') c
  perform : ∀ att call, Ok call → T att (att.perform call).1 (att.perform call).2
  call : ∀ att call, T att [.upcall call] att
  free : ∀ att op, T att (Bearer.destroyAttSendOp op) att

/-- An event that is not about a received PDU, a response or an accepted
    operation. -/
def BearerEvent.Plain : BearerEvent κ δ → Prop
  | .accepted _ => False
  | .received _ => False
  | .sent packet => packet.type ≠ .rsp
  | _ => True

theorem plain_idle {e : BearerEvent κ δ} (h : e.Idle) : e.Plain := by
  cases e with
  | accepted op => exact h.elim
  | received pdu => exact h.elim
  | sent packet => exact h.elim
  | _ => trivial

/-- What a bearer keeps over changes to other fields than these four. -/
def IgnoresPlain (T : Bearer κ δ → List (BearerEvent κ δ) → Bearer κ δ → Prop) : Prop :=
  ∀ att att' es, (∀ e ∈ es, e.Plain) → att'.nextSendId = att.nextSendId → att'.mtu = att.mtu →
    att'.inReq = att.inReq → att'.reading = att.reading → T att es att'

namespace Law

variable {Ok : AttCall κ δ → Prop} {T : Bearer κ δ → List (BearerEvent κ δ) → Bearer κ δ → Prop}
  {U : UpperLayer ε σ κ δ}

theorem performAll (hT : Law Ok T) {calls : List (AttCall κ δ)} (hok : ∀ c ∈ calls, Ok c)
    (att : Bearer κ δ) : T att (att.performAll calls).1 (att.performAll calls).2 := by
  induction calls generalizing att with
  | nil => exact hT.nil att
  | cons call calls ih =>
      exact hT.trans (hT.perform att call (hok call List.mem_cons_self))
        (ih (fun c hc => hok c (List.mem_cons_of_mem call hc)) _)

theorem afterNotify (hT : Law Ok T)
    (hsend : ∀ opcode pdu, pdu.length = 4 → Ok (.send opcode pdu none none default))
    (opcode : UInt8) (found : Bool) (w : Endpoint σ κ δ) :
    T w.att (w.afterNotify opcode found).1 (w.afterNotify opcode found).2.att := by
  rw [Endpoint.afterNotify]
  split
  · exact hT.perform w.att (.send _ _ none none default) (hsend _ _ rfl)
  · exact hT.nil w.att

section Callbacks

variable (hT : Law Ok T) (hU : U.Calls Ok) (env : ε)

include hT hU

/-- A callback keeps what its calls keep. -/
theorem upcall (call : Upcall κ) (w : Endpoint σ κ δ) :
    T w.att (w.upcall U env call).1 (w.upcall U env call).2.att :=
  hT.trans (hT.call w.att call) (hT.performAll (hU env w.upper w.att call) w.att)

theorem respond (w : Endpoint σ κ δ) (op : AttSendOp κ δ) (opcode : UInt8) (pdu : List UInt8) :
    T w.att (w.respond U env op opcode pdu).1 (w.respond U env op opcode pdu).2.att := by
  rw [Endpoint.respond]
  cases op.callback with
  | none => exact hT.nil w.att
  | some callback => exact hT.upcall hU env _ w

theorem discAll (ops : List (AttSendOp κ δ)) (w : Endpoint σ κ δ) :
    T w.att (w.discAll U env ops).1 (w.discAll U env ops).2.att := by
  induction ops generalizing w with
  | nil => exact hT.nil w.att
  | cons op ops ih => exact hT.trans (hT.trans (hT.respond hU env w op _ _) (hT.free _ op)) (ih _)

/-- The end of the pending request keeps what is kept when it is dropped. -/
theorem endReq (hdrop : ∀ att, T att (att.pendingReq.toList.flatMap Bearer.destroyAttSendOp)
    { att with pendingReq := none }) (opcode : UInt8) (pdu : List UInt8) (w : Endpoint σ κ δ) :
    T w.att (w.endReq U env opcode pdu).1 (w.endReq U env opcode pdu).2.att := by
  rw [Endpoint.endReq]
  cases w.att.pendingReq with
  | none => exact hT.nil w.att
  | some op => exact hT.trans (hT.respond hU env w op opcode pdu) (hdrop _)

theorem endInd (hdrop : ∀ att, T att (att.pendingInd.toList.flatMap Bearer.destroyAttSendOp)
    { att with pendingInd := none }) (opcode : UInt8) (pdu : List UInt8) (w : Endpoint σ κ δ) :
    T w.att (w.endInd U env opcode pdu).1 (w.endInd U env opcode pdu).2.att := by
  rw [Endpoint.endInd]
  cases w.att.pendingInd with
  | none => exact hT.nil w.att
  | some op => exact hT.trans (hT.respond hU env w op opcode pdu) (hdrop _)

theorem notifyAll (opcode : UInt8) (pdu : List UInt8) (list : List (AttNotify κ δ))
    (w : Endpoint σ κ δ) :
    T w.att (w.notifyAll U env opcode pdu list).1 (w.notifyAll U env opcode pdu list).2.att := by
  induction list generalizing w with
  | nil => exact hT.nil w.att
  | cons notify list ih =>
      rw [Endpoint.notifyAll]
      split
      · exact ih w
      · exact hT.trans (hT.upcall hU env _ w) (ih _)

theorem handleNotify
    (hsend : ∀ opcode pdu, pdu.length = 4 → Ok (.send opcode pdu none none default))
    (opcode : UInt8) (pdu : List UInt8) (w : Endpoint σ κ δ) :
    T w.att (w.handleNotify U env opcode pdu).1 (w.handleNotify U env opcode pdu).2.att := by
  rw [Endpoint.handleNotify]
  split
  · exact hT.nil w.att
  · exact hT.trans (hT.notifyAll hU env opcode _ _ w) (hT.afterNotify hsend opcode _ _)

theorem disconnHandlers (err : ℤ) (remaining : ℕ) (w : Endpoint σ κ δ) :
    T w.att (w.disconnHandlers U env err remaining).1
      (w.disconnHandlers U env err remaining).2.att := by
  induction remaining generalizing w with
  | zero => exact hT.nil w.att
  | succ remaining ih =>
      rw [Endpoint.disconnHandlers]
      refine hT.trans ?_ (ih _)
      split
      · exact hT.nil w.att
      · split
        · exact hT.nil w.att
        · split
          · exact hT.nil w.att
          · exact hT.upcall hU env _ w

theorem discQueue (queue : Bearer κ δ → List (AttSendOp κ δ)) (empty : Bearer κ δ → Bearer κ δ)
    (w : Endpoint σ κ δ) (hempty : T w.att [] (empty w.att)) :
    T w.att (w.discQueue U env queue empty).1 (w.discQueue U env queue empty).2.att :=
  hT.trans hempty (hT.discAll hU env (queue w.att) { w with att := empty w.att })

end Callbacks

theorem plain_free (op : Option (AttSendOp κ δ)) :
    ∀ e ∈ op.toList.flatMap Bearer.destroyAttSendOp, e.Plain := by
  intro e he
  rcases List.mem_flatMap.mp he with ⟨x, _, hx⟩
  exact plain_idle (Bearer.idle_free x e hx)

section Plain

variable (hT : Law Ok T) (hplain : IgnoresPlain T) (hU : U.Calls Ok) (env : ε)

include hplain

/-- A change without events. -/
theorem change {att att' : Bearer κ δ} (hid : att'.nextSendId = att.nextSendId)
    (hmtu : att'.mtu = att.mtu) (hreq : att'.inReq = att.inReq)
    (hreading : att'.reading = att.reading) : T att [] att' :=
  hplain att att' [] (fun _ he => absurd he List.not_mem_nil) hid hmtu hreq hreading

theorem wakeupWriter (att : Bearer κ δ) : T att [] att.wakeupWriter := by
  rcases Bearer.wakeupWriter_cases att with heq | ⟨_, heq⟩ <;> rw [heq] <;>
    exact change hplain rfl rfl rfl rfl

include hT hU

theorem finishRsp (rspOpcode : UInt8) (rspPdu : List UInt8) (w : Endpoint σ κ δ) :
    T w.att (w.finishRsp U env rspOpcode rspPdu).1 (w.finishRsp U env rspOpcode rspPdu).2.att := by
  have hend := hT.endReq hU env (fun att => hplain _ _ _ (plain_free att.pendingReq)
    rfl rfl rfl rfl) rspOpcode rspPdu w
  have hboth := hT.trans hend (wakeupWriter hplain _)
  rwa [List.append_nil] at hboth

theorem handleRsp (link : Link) (opcode : UInt8) (pdu : List UInt8) (w : Endpoint σ κ δ) :
    T w.att (w.handleRsp U env link opcode pdu).1 (w.handleRsp U env link opcode pdu).2.att := by
  rw [Endpoint.handleRsp]
  split
  · refine hplain w.att w.att _ (fun e he => ?_) rfl rfl rfl rfl
    rw [List.mem_singleton.mp he]
    trivial
  · case h_2 op _ =>
      split
      · rcases Endpoint.handleErrorRsp_cases w.att op link pdu with ⟨level, hlevel⟩
        -- Only the security level has changed, or the request is retried.
        have hchange : T w.att [] (Endpoint.handleErrorRsp w.att op link pdu).2.1 := by
          rcases hlevel with heq | heq <;> rw [heq] <;> exact change hplain rfl rfl rfl rfl
        split
        · case h_1 att hresult =>
            rw [hresult] at hchange
            exact hT.trans hchange (wakeupWriter hplain att)
        · case h_2 reqOpcode att hresult =>
            rw [hresult] at hchange
            split
            · exact hT.trans hchange (hT.finishRsp hplain hU env _ _ { w with att })
            · exact hT.trans hchange (hT.finishRsp hplain hU env _ _ { w with att })
      · split
        · exact hT.finishRsp hplain hU env _ _ w
        · exact hT.finishRsp hplain hU env _ _ w

theorem handleConf (pdu : List UInt8) (w : Endpoint σ κ δ) :
    T w.att (w.handleConf U env pdu).1 (w.handleConf U env pdu).2.att := by
  rw [Endpoint.handleConf]
  split
  · refine hplain w.att w.att _ (fun e he => ?_) rfl rfl rfl rfl
    rw [List.mem_singleton.mp he]
    trivial
  · have hend := hT.endInd hU env (fun att => hplain _ _ _ (plain_free att.pendingInd)
      rfl rfl rfl rfl) (UInt8.ofNat btAttOpHandleValConf) [] w
    have hboth := hT.trans hend (wakeupWriter hplain _)
    rwa [List.append_nil] at hboth

theorem expire (op : AttSendOp κ δ) (w : Endpoint σ κ δ) {att : Bearer κ δ}
    (hatt : T w.att [] att) : T w.att (w.expire U env op att).1 (w.expire U env op att).2.att := by
  rw [Endpoint.expire]
  have hshutdown (att : Bearer κ δ) : T att (if att.io then [.shutdown] else []) att := by
    split
    · refine hplain att att _ (fun e he => ?_) rfl rfl rfl rfl
      rw [List.mem_singleton.mp he]
      trivial
    · exact hT.nil att
  refine hT.trans (hT.trans ?_ (hT.free _ op)) (hshutdown _)
  split
  · exact hatt
  · exact hT.trans hatt (hT.upcall hU env _ { w with att })

theorem timeoutCb (id : BitVec 32) (w : Endpoint σ κ δ) :
    T w.att (w.timeoutCb U env id).1 (w.timeoutCb U env id).2.att := by
  rw [Endpoint.timeoutCb]
  split
  · exact hT.expire hplain hU env _ w (change hplain rfl rfl rfl rfl)
  · split
    · exact hT.expire hplain hU env _ w (change hplain rfl rfl rfl rfl)
    · exact hT.nil w.att

theorem disconnectCb (err : ℤ) (w : Endpoint σ κ δ) :
    T w.att (w.disconnectCb U env err).1 (w.disconnectCb U env err).2.att := by
  have hdrop (att : Bearer κ δ) : T att att.btAttUnregisterAll.1 att.btAttUnregisterAll.2 := by
    refine hplain _ _ _ (fun e he => ?_) rfl rfl rfl rfl
    rcases List.mem_flatMap.mp he with ⟨destroy, _, hdestroy⟩
    rcases List.mem_map.mp hdestroy with ⟨d, _, rfl⟩
    trivial
  have hreqs := fun w => hT.discQueue hU env Bearer.reqQueue
    (fun att => { att with reqQueue := [] }) w (change hplain rfl rfl rfl rfl)
  have hinds := fun w => hT.discQueue hU env Bearer.indQueue
    (fun att => { att with indQueue := [] }) w (change hplain rfl rfl rfl rfl)
  have hwrites := fun w => hT.discQueue hU env Bearer.writeQueue
    (fun att => { att with writeQueue := [] }) w (change hplain rfl rfl rfl rfl)
  have hreq := fun opcode pdu w => hT.endReq hU env (fun att => hplain _ _ _
    (plain_free att.pendingReq) rfl rfl rfl rfl) opcode pdu w
  have hind := fun opcode pdu w => hT.endInd hU env (fun att => hplain _ _ _
    (plain_free att.pendingInd) rfl rfl rfl rfl) opcode pdu w
  have hstart : T w.att [] { w.att with io := false, writerActive := false } :=
    change hplain rfl rfl rfl rfl
  rw [Endpoint.disconnectCb]
  exact hT.trans (hT.trans (hT.trans (hT.trans (hT.trans (hT.trans (hT.trans hstart
    (hreqs { w with att := { w.att with io := false, writerActive := false } })) (hinds _))
    (hwrites _)) (hreq _ _ _)) (hind _ _ _)) (hT.disconnHandlers hU env err _ _)) (hdrop _)

section Whole

variable (hturn : ∀ att inReq reading, T att [] { att with inReq, reading })
  (hheard : ∀ att pdu, T att [.received pdu] att) (hsent : ∀ att packet, T att [.sent packet] att)
  (hsend : ∀ opcode pdu, pdu.length = 4 → Ok (.send opcode pdu none none default))

include hturn hheard hsend in
theorem canReadData (link : Link) (packet : List UInt8) (w : Endpoint σ κ δ) :
    T w.att (w.canReadData U env link packet).1 (w.canReadData U env link packet).2.att := by
  have hnotify := fun opcode pdu => hT.handleNotify hU env hsend opcode pdu w
  rw [Endpoint.canReadData]
  split
  · case h_1 hbuf =>
      rw [hbuf]
      exact hheard w.att []
  · case h_2 opcode pdu hbuf =>
      rw [hbuf]
      refine hT.trans (hheard w.att (opcode :: pdu)) ?_
      cases getOpType opcode with
      | rsp => exact hT.handleRsp hplain hU env link opcode pdu w
      | conf => exact hT.handleConf hplain hU env pdu w
      | req =>
          dsimp only
          split
          · refine hT.trans (hplain w.att w.att [.shutdown] (fun e he => ?_) rfl rfl rfl rfl)
              (hturn w.att w.att.inReq false)
            rw [List.mem_singleton.mp he]
            trivial
          · exact hT.trans (hturn w.att true w.att.reading)
              (hT.handleNotify hU env hsend opcode pdu
                { w with att := { w.att with inReq := true } })
      | cmd => exact hnotify opcode pdu
      | ind => exact hnotify opcode pdu
      | not => exact hnotify opcode pdu
      | unknown => exact hnotify opcode pdu

include hturn hsent in
theorem canWriteData (ok : Bool) (w : Endpoint σ κ δ) :
    T w.att (w.canWriteData U env ok).1 (w.canWriteData U env ok).2.att := by
  rw [Endpoint.canWriteData]
  split
  · exact change hplain rfl rfl rfl rfl
  · case h_2 op att hpick =>
      have hatt : T w.att [] att := by
        rcases Endpoint.pick_cases hpick with
          ⟨rest, _, rfl⟩ | ⟨_, rest, _, rfl⟩ | ⟨_, rest, _, rfl⟩ <;>
          exact change hplain rfl rfl rfl rfl
      split
      · exact hT.trans (hT.trans hatt (hT.respond hU env { w with att } op _ [])) (hT.free _ op)
      · have hgone := hT.trans hatt (hsent att op.packet)
        split
        · exact hT.trans hgone (change hplain rfl rfl rfl rfl)
        · exact hT.trans hgone (change hplain rfl rfl rfl rfl)
        · exact hT.trans (hT.trans hgone (hturn att false att.reading)) (hT.free _ op)
        · exact hT.trans hgone (hT.free att op)

omit env in
include hturn hheard hsent hsend in
/-- A law about calls, and about what is received and sent, is a law of the steps
    of the bearer. -/
theorem step (w w' : Endpoint σ κ δ) (i : BearerInput ε κ δ) (hi : ∀ call, i = .call call → Ok call)
    (h : ((bearerMachine U).step w i).2 = some w') :
    T w.att ((bearerMachine U).step w i).1 w'.att := by
  have hdestroy (destroy : Option δ) :
      ∀ e ∈ (destroyEvents destroy : List (BearerEvent κ δ)), e.Plain := fun e he =>
    plain_idle (Bearer.idle_destroyEvents destroy e he)
  have hheld (destroy : Option δ) :
      ∀ e ∈ ([.registered destroy] : List (BearerEvent κ δ)), e.Plain := fun e he => by
    rw [List.mem_singleton.mp he]
    trivial
  cases i with
  | readable env link packet =>
      simp only [bearerMachine] at h ⊢
      split at h <;> rename_i hready <;> rw [← Option.some.inj h]
      · rw [if_pos hready]
        exact hT.canReadData hplain hU env hturn hheard hsend link packet w
      · rw [if_neg hready]
        exact hT.nil w.att
  | error =>
      rw [← Option.some.inj h]
      exact hturn w.att w.att.inReq false
  | writable env ok =>
      simp only [bearerMachine] at h ⊢
      split at h <;> rename_i hready <;> rw [← Option.some.inj h]
      · rw [if_pos hready]
        exact hT.canWriteData hplain hU env hturn hsent ok w
      · rw [if_neg hready]
        exact hT.nil w.att
  | timeout env timer =>
      rw [← Option.some.inj h]
      exact hT.timeoutCb hplain hU env timer w
  | hangup env err =>
      simp only [bearerMachine] at h ⊢
      split at h <;> rename_i hready <;> rw [← Option.some.inj h]
      · rw [if_pos hready]
        exact hT.disconnectCb hplain hU env err w
      · rw [if_neg hready]
        exact hT.nil w.att
  | call call =>
      rw [← Option.some.inj h]
      exact hT.perform w.att call (hi call rfl)
  | register opcode callback destroy =>
      rw [← Option.some.inj h]
      simp only [bearerMachine, Bearer.btAttRegister]
      split
      · exact hT.nil w.att
      · exact hplain _ _ _ (hheld destroy) rfl rfl rfl rfl
  | registerDisconnect callback destroy =>
      rw [← Option.some.inj h]
      simp only [bearerMachine, Bearer.btAttRegisterDisconnect]
      split
      · exact hT.nil w.att
      · exact hplain _ _ _ (hheld destroy) rfl rfl rfl rfl
  | unregister handler =>
      rw [← Option.some.inj h]
      simp only [bearerMachine, Bearer.btAttUnregister]
      split
      · exact hT.nil w.att
      · split
        · exact hT.nil w.att
        · exact hplain _ _ _ (hdestroy _) rfl rfl rfl rfl
  | unregisterAll =>
      rw [← Option.some.inj h]
      refine hplain _ _ _ (fun e he => ?_) rfl rfl rfl rfl
      rcases List.mem_flatMap.mp he with ⟨destroy, _, hmem⟩
      exact hdestroy destroy e hmem
  | setTimeoutCb callback destroy =>
      rw [← Option.some.inj h]
      refine hplain _ _ _ (fun e he => ?_) rfl rfl rfl rfl
      rcases List.mem_append.mp he with hold | hnew
      · exact hdestroy _ e hold
      · exact hheld destroy e hnew
  | unref => exact absurd h.symm (Option.some_ne_none w')

end Whole

end Plain

end Law

theorem btAttUnref_events (att : Bearer κ δ) : ∀ e ∈ att.btAttUnref, e.Plain := by
  have hlist (destroys : List (Option δ)) :
      ∀ e ∈ (destroys.flatMap destroyEvents : List (BearerEvent κ δ)), e.Plain := by
    intro e he
    rcases List.mem_flatMap.mp he with ⟨destroy, _, hdestroy⟩
    exact plain_idle (Bearer.idle_destroyEvents destroy e hdestroy)
  have hops (ops : List (AttSendOp κ δ)) :
      ∀ e ∈ ops.flatMap Bearer.destroyAttSendOp, e.Plain := by
    intro e he
    rcases List.mem_flatMap.mp he with ⟨op, _, hop⟩
    exact plain_idle (Bearer.idle_free op e hop)
  intro e he
  rcases List.mem_append.mp he with he | htimeout
  · rcases List.mem_append.mp he with he | hpending
    · rcases List.mem_append.mp he with hhandlers | hcancel
      · exact hlist _ e hhandlers
      · rcases List.mem_append.mp hcancel with hcancel | hind
        · rcases List.mem_append.mp hcancel with hqueues | hreq
          · exact hops _ e hqueues
          · exact plain_idle (Bearer.idle_cancelPending _ e hreq)
        · exact plain_idle (Bearer.idle_cancelPending _ e hind)
    · exact hops _ e hpending
  · exact plain_idle (Bearer.idle_destroyEvents _ e htimeout)

end Wallclock
