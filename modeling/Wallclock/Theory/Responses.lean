import Wallclock.Core.Server
import Wallclock.Theory.Dispatch

/-!
# One Response for Each Request

What a client hears from the server, over whole connections: every request is
answered by one PDU, its own response or an Error Response with its opcode, and
a Write Command by none. The answers come in the order of the requests.

`encode_pdu` drops a PDU that exceeds the transmission unit without a word, and
a client whose request is not answered has to give up the connection. So the
point is the length of each response. The handlers that collect values stop
before a response is too long, which is an invariant of their loops; a Prepare
Write Response repeats its request, which the transport has only read if it
fits.

## Main definitions

* `Opcode.response`: The opcode of the response to a request.
* `Opcode.Answer`: A PDU that answers a request.
* `Single`: A single answer.
* `Event.asResponse`: The PDUs that are not notifications.
* `Received`: A PDU that fits, and that the transport has read whole.

## Theorems

* `send_eq`, `single_send`, `single_errorRsp`: What is sent.
* `readByGrpTypeGo_length`, `findInfoGo_length`, `findByType_length`,
  `complete_length`: The loops stop in time.
* `readByGrpTypeCb_single`, `findInfoCb_single`, `findByTypeValCb_single`,
  `exchangeMtuCb_single`: The handlers that only look at the database.
* `readCompleteCb_single`, `handleReadReq_single`, `processReadByType_single`,
  `readByTypeCb_single`, `appendValue_length`, `readMultipleGo_single`,
  `readMultipleCb_single`: Reads.
* `Written.attMtu`, `writeError_single`, `writeCompleteCb_single`,
  `writeCb_single`: Writes.
* `prepWriteCb_single`, `execError_single`, `execNextPrepWrite_single`,
  `execWriteCb_single`: Prepared
  writes.
* `Single.asResponse`, `asResponse_dispatch`: Responses among the events.
* `handleNotify_single`, `handleNotify_shape`, `handleNotify_answer`: Any PDU.
* `timeRequest_received`: A PDU that fits.
* `answered_in_order`, `answered_in_order_timeRequest`: Whole runs.
-/

namespace Wallclock

open ByteCodec GattDb StepMachine

namespace Opcode

/-- The opcode of the response to a request. -/
def response : Opcode → Option ℕ
  | mtuReq => some btAttOpMtuRsp
  | readByGrpTypeReq => some btAttOpReadByGrpTypeRsp
  | readByTypeReq => some btAttOpReadByTypeRsp
  | findInfoReq => some btAttOpFindInfoRsp
  | findByTypeReq => some btAttOpFindByTypeRsp
  | writeReq => some btAttOpWriteRsp
  | writeCmd => none
  | readReq => some btAttOpReadRsp
  | readBlobReq => some btAttOpReadBlobRsp
  | readMultReq => some btAttOpReadMultRsp
  | prepWriteReq => some btAttOpPrepWriteRsp
  | execWriteReq => some btAttOpExecWriteRsp

/-- A PDU that answers a request: its response, or an Error Response that names
    its opcode. -/
def Answer (opcode : Opcode) (rsp : ℕ × List UInt8) : Prop :=
  opcode.response = some rsp.1 ∨
    rsp.1 = btAttOpErrorRsp ∧ rsp.2.length = 4 ∧ rsp.2.take 1 = leBytes 1 opcode.code

end Opcode

/-- A single answer that fits the transmission unit, and nothing else. -/
def Single (mtu : ℕ) (opcode : Opcode) (events : List Event) : Prop :=
  ∃ rsp : ℕ × List UInt8, events = [.queued rsp.1 rsp.2] ∧ opcode.Answer rsp ∧
    1 + rsp.2.length ≤ mtu

section Sending

variable {c : Connection} {pdu : List UInt8}

/-- What fits is sent. -/
theorem send_eq (opcode : ℕ) (h : 1 + pdu.length ≤ c.attMtu) :
    btAttSend c opcode pdu = [.queued opcode pdu] := if_neg (Nat.not_lt.mpr h)

theorem single_send {opcode : Opcode} {rsp : ℕ} (hrsp : opcode.response = some rsp)
    (h : 1 + pdu.length ≤ c.attMtu) : Single c.attMtu opcode (btAttSend c rsp pdu) :=
  ⟨(rsp, pdu), send_eq rsp h, Or.inl hrsp, h⟩

theorem single_errorRsp (hmtu : btAttDefaultLeMtu ≤ c.attMtu) (opcode : Opcode)
    (handle err : ℕ) : Single c.attMtu opcode (btAttSendErrorRsp c opcode.code handle err) := by
  have hmtu' : 23 ≤ c.attMtu := hmtu
  refine ⟨(btAttOpErrorRsp, _), errorRsp_eq hmtu opcode.code handle err,
    Or.inr ⟨rfl, ?_, ?_⟩, ?_⟩
  · simp only [List.length_append, length_leBytes]
  · rw [List.append_assoc, List.take_left' (length_leBytes 1 _)]
  · simp only [List.length_append, length_leBytes]
    omega

end Sending

section Loops

variable {mtu : ℕ}

/-- A unit is appended only if it fits, whatever the length of its value. -/
theorem readByGrpTypeGo_length {dataValLen : ℕ} (q : List Service) {pdu rsp : List UInt8}
    (hpdu : pdu.length ≤ mtu - 1) (h : encodeReadByGrpTypeRsp.go mtu dataValLen pdu q = some rsp) :
    rsp.length ≤ mtu - 1 := by
  induction q generalizing pdu with
  | nil => exact Option.some.inj h ▸ hpdu
  | cons s q ih =>
      unfold encodeReadByGrpTypeRsp.go at h
      simp only at h
      split_ifs at h with hempty hsize hfull
      · exact Option.some.inj h ▸ hpdu
      · exact Option.some.inj h ▸ hpdu
      · refine ih ?_ h
        simp only [List.length_append, length_leBytes, List.length_take]
        omega

theorem findInfoGo_length {uuidLen : ℕ} (q : List Attribute) {pdu rsp : List UInt8}
    (hpdu : pdu.length ≤ mtu - 1) (h : encodeFindInfoRsp.go mtu uuidLen pdu q = some rsp) :
    rsp.length ≤ mtu - 1 := by
  induction q generalizing pdu with
  | nil => exact Option.some.inj h ▸ hpdu
  | cons a q ih =>
      unfold encodeFindInfoRsp.go at h
      split_ifs at h with hzero hsize hfull
      · exact Option.some.inj h ▸ hpdu
      · exact Option.some.inj h ▸ hpdu
      · refine ih ?_ h
        rw [ne_eq, not_not] at hsize
        simp only [List.length_append, length_leBytes, hsize]
        omega

theorem findByType_length (q : List Service) (data : List UInt8 × ℕ)
    (hdata : data.1.length ≤ mtu - 1) :
    (q.foldl (findByTypeValAttCb mtu) data).1.length ≤ mtu - 1 := by
  induction q generalizing data with
  | nil => exact hdata
  | cons s q ih =>
      rw [List.foldl_cons]
      refine ih _ ?_
      unfold findByTypeValAttCb
      split_ifs with herr hfull
      · exact hdata
      · exact hdata
      · exact hdata
      · simp only [List.length_append, length_leBytes]
        omega

theorem complete_length (hmtu : btAttDefaultLeMtu ≤ mtu) {op : AsyncReadOp}
    (hop : op.pdu.length ≤ mtu - 1) (handle : ℕ) (value : List UInt8) :
    (op.complete mtu handle value).pdu.length ≤ mtu - 1 := by
  have hmtu' : 23 ≤ mtu := hmtu
  unfold AsyncReadOp.complete
  by_cases hfirst : op.pdu.length = 0
  · -- The length byte comes first.
    simp only [hfirst, decide_true, if_true, not_true_eq_false, false_and, if_false]
    split_ifs with hfull
    · rw [length_leBytes]
      omega
    · simp only [List.length_append, length_leBytes, List.length_take] at hfull ⊢
      omega
  · simp only [hfirst, decide_false, Bool.false_eq_true, if_false, not_false_eq_true, true_and]
    split_ifs with hsize hfull
    · exact hop
    · exact hop
    · simp only [List.length_append, length_leBytes, List.length_take]
      omega

end Loops

section LookOnly

variable {c : Connection} (hmtu : btAttDefaultLeMtu ≤ c.attMtu) (pdu : List UInt8)

include hmtu

theorem exchangeMtuCb_single :
    Single c.attMtu .mtuReq (exchangeMtuCb c btAttOpMtuReq pdu).1 := by
  have hmtu' : 23 ≤ c.attMtu := hmtu
  unfold exchangeMtuCb
  split_ifs
  · exact single_errorRsp hmtu .mtuReq _ _
  · refine single_send rfl ?_
    rw [length_leBytes]
    omega

theorem readByGrpTypeCb_single :
    Single c.attMtu .readByGrpTypeReq (readByGrpTypeCb c btAttOpReadByGrpTypeReq pdu) := by
  have hmtu' : 23 ≤ c.attMtu := hmtu
  have herror (handle err : ℕ) := single_errorRsp hmtu .readByGrpTypeReq handle err
  simp only [readByGrpTypeCb]
  split_ifs
  · exact herror _ _
  · exact herror _ _
  · exact herror _ _
  · exact herror _ _
  · exact herror _ _
  split
  · exact herror _ _
  rename_i rsp hrsp
  refine single_send rfl ?_
  -- Whether or not there is a first service, the loop starts with one byte at most.
  have hlen : rsp.length ≤ c.attMtu - 1 := by
    unfold encodeReadByGrpTypeRsp at hrsp
    split at hrsp
    · rw [← Option.some.inj hrsp]
      exact Nat.zero_le _
    · refine readByGrpTypeGo_length _ ?_ hrsp
      rw [length_leBytes]
      omega
  omega

theorem findInfoCb_single : Single c.attMtu .findInfoReq (findInfoCb c btAttOpFindInfoReq pdu) := by
  have hmtu' : 23 ≤ c.attMtu := hmtu
  have herror (handle err : ℕ) := single_errorRsp hmtu .findInfoReq handle err
  simp only [findInfoCb]
  split_ifs
  · exact herror _ _
  · exact herror _ _
  · exact herror _ _
  · exact herror _ _
  split
  · exact herror _ _
  rename_i rsp hrsp
  refine single_send rfl ?_
  have hlen : rsp.length ≤ c.attMtu - 1 := by
    unfold encodeFindInfoRsp at hrsp
    split at hrsp
    · rw [← Option.some.inj hrsp]
      exact Nat.zero_le _
    · refine findInfoGo_length _ ?_ hrsp
      rw [length_leBytes]
      omega
  omega

theorem findByTypeValCb_single :
    Single c.attMtu .findByTypeReq (findByTypeValCb c btAttOpFindByTypeReq pdu) := by
  have hmtu' : 23 ≤ c.attMtu := hmtu
  have herror (handle err : ℕ) := single_errorRsp hmtu .findByTypeReq handle err
  have hlen := findByType_length (gattDbFindByTypeValue c.db (getLe16 pdu) (getLe16 (pdu.drop 2))
    (Uuid.ofLe ((pdu.drop 4).take 2)) (pdu.drop 6)) ([], 0) (Nat.zero_le (c.attMtu - 1))
  simp only [findByTypeValCb]
  generalize List.foldl _ _ _ = data at hlen ⊢
  generalize (if data.1.length = 0 then btAttErrorAttributeNotFound else data.2) = ecode
  split_ifs
  · exact herror _ _
  · exact herror _ _
  · exact herror _ _
  · exact single_send rfl (by omega)

end LookOnly

section Reads

variable {env : Env} {c : Connection}

theorem readCompleteCb_single (hmtu : btAttDefaultLeMtu ≤ c.attMtu) {opcode : Opcode} {rsp : ℕ}
    (hrsp : opcode.response = some rsp) (hget : getReadRspOpcode opcode.code = rsp)
    (handle err : ℕ) (value : List UInt8) :
    Single c.attMtu opcode (readCompleteCb c opcode.code handle err value).1 := by
  have hmtu' : 23 ≤ c.attMtu := hmtu
  unfold readCompleteCb
  rw [hget]
  split_ifs
  · exact single_errorRsp hmtu opcode handle err
  · refine single_send hrsp ?_
    have hlen := List.length_take_le (c.attMtu - 1) value
    omega

theorem handleReadReq_single (h : Ready c) {opcode : Opcode} {rsp : ℕ}
    (hrsp : opcode.response = some rsp) (hget : getReadRspOpcode opcode.code = rsp)
    (handle offset : ℕ) (hfits : ∀ a, gattDbGetAttribute c.db handle = some a → a.ReadFits) :
    Single c.attMtu opcode (handleReadReq env c opcode.code handle offset).1 := by
  have herror (handle err : ℕ) := single_errorRsp h.mtu opcode handle err
  unfold handleReadReq
  rcases ha : gattDbGetAttribute c.db handle with _ | a
  · exact herror _ _
  have hmem := (mem_of_gattDbGetAttribute ha).1
  simp only [h.noRead, Option.isSome_none, Bool.false_eq_true, if_false]
  split_ifs
  · exact herror _ _
  · rw [read_completes offset (h.idle a hmem).1 (hfits a ha)]
    exact readCompleteCb_single (by exact h.mtu) hrsp hget _ _ _

/-- The queue of a Read By Type Request. -/
theorem processReadByType_single (hmtu : btAttDefaultLeMtu ≤ c.attMtu) {q : List Attribute}
    (hq : ∀ a ∈ q, a.reads.queue = [] ∧ a.ReadFits) {op : AsyncReadOp}
    (hop : op.pdu.length ≤ c.attMtu - 1) :
    Single c.attMtu .readByTypeReq (processReadByType env c op q).1 := by
  have hmtu' : 23 ≤ c.attMtu := hmtu
  -- Only the database changes from one read to the next.
  induction q generalizing c op with
  | nil => exact single_send rfl (by omega)
  | cons a q ih =>
      unfold processReadByType
      split_ifs
      · exact single_send rfl (by omega)
      by_cases hperm : checkPermissions env c a readMask = 0
      · simp only [hperm, ne_eq, not_true_eq_false, if_false]
        rw [read_completes 0 (hq a List.mem_cons_self).1 (hq a List.mem_cons_self).2, readAt_zero]
        simp only [if_false, not_true_eq_false]
        exact ih (by exact hmtu) (fun b hb => hq b (List.mem_cons_of_mem a hb))
          (complete_length hmtu hop _ _) hmtu'
      · simp only [ne_eq, hperm, not_false_eq_true, if_true]
        exact single_errorRsp hmtu .readByTypeReq _ _

theorem readByTypeCb_single (h : Ready c) {pdu : List UInt8}
    (hfits : pdu.length = 6 ∨ pdu.length = 20 → getLe16 pdu ≠ 0 → ∀ a ∈ gattDbReadByType c.db
      (getLe16 pdu) (getLe16 (pdu.drop 2)) (Uuid.ofLe (pdu.drop 4)), a.ReadFits) :
    Single c.attMtu .readByTypeReq (readByTypeCb env c btAttOpReadByTypeReq pdu).1 := by
  have herror (handle err : ℕ) := single_errorRsp h.mtu .readByTypeReq handle err
  simp only [readByTypeCb, h.noRead, Option.isSome_none, Bool.false_eq_true, if_false]
  split_ifs with hlen hzero hrange hempty
  · exact herror _ _
  · exact herror _ _
  · exact herror _ _
  · exact herror _ _
  · refine processReadByType_single (by exact h.mtu) (fun a ha => ⟨?_, ?_⟩) (Nat.zero_le _)
    · exact (h.idle a (mem_of_gattDbReadByType ha)).1
    · exact hfits (by omega) (by omega) a ha

/-- The response grows to the transmission unit at most. -/
theorem appendValue_length {rspData : List UInt8} (hlen : rspData.length ≤ c.attMtu - 1)
    (a : Attribute) : (appendValue c rspData a).length ≤ c.attMtu - 1 := by
  rw [appendValue, List.length_append, List.length_take]
  omega

theorem readMultipleGo_single (h : Ready c) {db : GattDb} (hidle : db.Idle)
    (hsame : db.mapAttributes .unread = c.db.mapAttributes .unread) {handle : ℕ} {a : Attribute}
    (hget : gattDbGetAttribute db handle = some a) {rspData : List UInt8}
    (hlen : rspData.length ≤ c.attMtu - 1) (handles : List ℕ)
    (hfits : ∀ b ∈ db.attributes, b.readFunc.isSome → b.reads.id.toNat +
      (readMultipleReads env { c with db } (c.attMtu - 1 - rspData.length)
        (handle :: handles)).count b.handle < 2 ^ 32) :
    Single c.attMtu .readMultReq (readMultipleGo env { c with db } rspData a handles).1 := by
  have hmtu : 23 ≤ c.attMtu := h.mtu
  have herror (db : GattDb) (handle err : ℕ) : Single c.attMtu .readMultReq
      (btAttSendErrorRsp { c with db } btAttOpReadMultReq handle err) :=
    single_errorRsp (by exact h.mtu) .readMultReq handle err
  have hsend (db : GattDb) {a : Attribute} {rspData : List UInt8}
      (hlen : rspData.length ≤ c.attMtu - 1) : Single c.attMtu .readMultReq
        (btAttSend { c with db } btAttOpReadMultRsp (appendValue c rspData a)) := by
    refine single_send rfl ?_
    have hle := appendValue_length hlen a
    show 1 + (appendValue c rspData a).length ≤ c.attMtu
    omega
  -- Induction on the handles that are left, as each read leaves fewer of them.
  induction handles generalizing db handle a rspData with
  | nil =>
      rcases first_read h.layout hidle hsame hget hfits with ⟨hfit, _, _⟩
      rw [readMultipleGo,
        readMultipleCompleteCb_eq (hidle a (mem_of_gattDbGetAttribute hget).1).1 hfit]
      split_ifs
      · exact herror _ _ _
      · exact hsend _ hlen
  | cons next handles ih =>
      rcases first_read h.layout hidle hsame hget hfits with ⟨hfit, hidle', hsame'⟩
      rw [readMultipleGo,
        readMultipleCompleteCb_eq (hidle a (mem_of_gattDbGetAttribute hget).1).1 hfit]
      by_cases hperm : checkPermissions env { c with db } a readMask = 0
      · rw [if_neg (not_not_intro hperm)]
        simp only
        split_ifs with hfull
        · exact hsend _ hlen
        rcases hnext : gattDbGetAttribute (db.afterRead a) next with _ | b
        · exact herror _ _ _
        · exact ih hidle' hsame' hnext (appendValue_length hlen a)
            (fits_next hget hperm (hsame'.trans hsame.symm) hfull hfits)
      · rw [if_pos hperm]
        exact herror _ _ _

theorem readMultipleCb_single (h : Ready c) {pdu : List UInt8}
    (hfits : 4 ≤ pdu.length → ∀ b ∈ c.db.attributes, b.readFunc.isSome → b.reads.id.toNat +
      (readMultipleReads env c (c.attMtu - 1) (getHandles pdu)).count b.handle < 2 ^ 32) :
    Single c.attMtu .readMultReq (readMultipleCb env c btAttOpReadMultReq pdu).1 := by
  have herror (handle err : ℕ) := single_errorRsp h.mtu .readMultReq handle err
  unfold readMultipleCb
  split_ifs with hlen
  · exact herror _ _
  have hfits' := hfits (Nat.le_of_not_lt hlen)
  rcases pdu with _ | ⟨lo, _ | ⟨hi, rest⟩⟩
  · exact absurd (Nat.zero_lt_succ 3) hlen
  · exact absurd (show 1 < 4 by decide) hlen
  rw [getHandles] at hfits' ⊢
  rcases hget : gattDbGetAttribute c.db (leNat [lo, hi]) with _ | a
  · simp only [hget]
    exact herror _ _
  · simp only [hget]
    exact readMultipleGo_single h h.idle rfl hget (Nat.zero_le _) _ hfits'

end Reads

section Writes

variable {env : Env} {c : Connection}

theorem Written.attMtu {c' : Connection} (h : Written c c') : c'.attMtu = c.attMtu := by
  rw [h.eq]

theorem prepWriteCb_single (h : Ready c) {pdu : List UInt8} (hread : 1 + pdu.length ≤ c.attMtu)
    (hsize : 1 + pdu.length < 2 ^ 16)
    (hfits : 4 ≤ pdu.length → c.prepQueue.length < c.maxPrepQueueLen →
      ∀ a ∈ c.db.attributes, a.handle = getLe16 pdu → a.WriteFits)
    (hprep : 4 ≤ pdu.length → c.prepQueue.length < c.maxPrepQueueLen →
      ∀ p, c.prepQueue.getLast? = some p → p.handle = getLe16 pdu →
        getLe16 (pdu.drop 2) = p.value.length + p.offset →
          p.value.length + (pdu.length - 4) < 2 ^ 16) :
    Single c.attMtu .prepWriteReq (prepWriteCb env c btAttOpPrepWriteReq pdu).1 := by
  have herror {c : Connection} (hmtu : btAttDefaultLeMtu ≤ c.attMtu) (handle err : ℕ) :=
    single_errorRsp hmtu .prepWriteReq handle err
  unfold prepWriteCb
  split_ifs with hlen hfull
  · exact herror h.mtu _ _
  · exact herror h.mtu _ _
  rw [not_lt] at hlen
  rw [ge_iff_le, not_le] at hfull
  simp only
  rcases hget : gattDbGetAttribute c.db (getLe16 pdu) with _ | a
  · exact herror h.mtu _ _
  rcases mem_of_gattDbGetAttribute hget with ⟨ha, hhandle⟩
  simp only
  split_ifs with hcheck
  · exact herror h.mtu _ _
  rcases write_cases env (getLe16 (pdu.drop 2)) none h.mtu h.layout h.idle ha
    (hfits hlen hfull a ha hhandle) with ⟨cmd, hcmd, _⟩ | ⟨c', err, hwritten, _, hwrite⟩
  · rw [commandCall_null] at hcmd
    exact absurd hcmd.symm (Option.some_ne_none cmd)
  rw [hwrite, commandCall_null]
  simp only [Option.toList_none, List.flatMap_nil, List.nil_append]
  have hready := h.written hwritten
  rw [← hwritten.attMtu]
  unfold prepWriteCompleteCb
  simp only
  split_ifs
  · exact herror hready.mtu _ _
  -- The response repeats the request.
  have hqueue : c'.prepQueue = c.prepQueue := by rw [hwritten.eq]
  have hdrop : (pdu.drop 4).length = pdu.length - 4 := List.length_drop
  rcases storePrepData_spec hready.live (getLe16 (pdu.drop 2)) (pdu.drop 4) (by omega)
    (by rw [hqueue, hdrop]; exact hprep hlen hfull) with ⟨queue, hstore, _⟩
  rw [hstore]
  exact single_send rfl (hread.trans (le_of_eq hwritten.attMtu.symm))

theorem execError_single (h : Ready c) (ehandle err : ℕ) :
    Single c.attMtu .execWriteReq (execError c ehandle err).1 := by
  rw [execError, (h.removeAll _).1]
  exact single_errorRsp h.mtu .execWriteReq ehandle err

theorem execNextPrepWrite_single (h : Ready c) (ehandle : ℕ) {queue : List PrepWriteData}
    (hqueue : ∀ p ∈ queue, Prepared p) :
    Single c.attMtu .execWriteReq (execNextPrepWrite env c ehandle queue).1 := by
  induction queue generalizing c ehandle with
  | nil =>
      have hmtu : 23 ≤ c.attMtu := h.mtu
      refine single_send rfl ?_
      rw [List.length_nil]
      omega
  | cons p queue ih =>
      have hrest : ∀ q ∈ queue, Prepared q := fun q hq =>
        hqueue q (List.mem_cons_of_mem p hq)
      have hpop : Ready { c with prepQueue := queue } := h.prepare hrest
      have hp := hqueue p List.mem_cons_self
      unfold execNextPrepWrite
      simp only
      rcases hget : gattDbGetAttribute c.db p.handle with _ | a
      · exact execError_single hpop _ _
      have ha := (mem_of_gattDbGetAttribute hget).1
      have hf : a.writeFunc = none := (stored_iff h.layout hget).mp hp.stored
      have hfits : a.WriteFits := fun hsome => by
        rw [hf] at hsome
        exact absurd hsome Bool.false_ne_true
      have hcall : ∀ value, a.commandCall p.offset value = none := fun value => by
        rw [Attribute.commandCall, hf]
        rfl
      simp only [hp.live, Bool.false_eq_true, if_false]
      generalize (if p.value.length = 0 then none else some p.value) = value
      rcases write_cases env (c := { c with prepQueue := queue }) p.offset value h.mtu h.layout
        h.idle ha hfits
        with ⟨cmd, hcmd, _⟩ | ⟨c', err, hwritten, _, hwrite⟩
      · rw [hcall] at hcmd
        exact absurd hcmd.symm (Option.some_ne_none cmd)
      rw [hwrite, hcall]
      simp only [Option.toList_none, List.flatMap_nil, List.nil_append]
      have hready := hpop.written hwritten
      have hmtu : c'.attMtu = c.attMtu := hwritten.attMtu
      rw [← hmtu]
      -- The first write that fails ends the request.
      split_ifs
      · exact execError_single hready _ _
      · exact ih hready a.handle hrest

theorem execWriteCb_single (h : Ready c) (pdu : List UInt8) :
    Single c.attMtu .execWriteReq (execWriteCb env c btAttOpExecWriteReq pdu).1 := by
  have hmtu : 23 ≤ c.attMtu := h.mtu
  have herror (handle err : ℕ) := single_errorRsp h.mtu .execWriteReq handle err
  have hremove := fun answer => (h.removeAll answer).1
  unfold execWriteCb
  simp only [hremove]
  split_ifs
  · exact herror _ _
  · refine single_send rfl ?_
    rw [List.length_nil]
    omega
  · split
    · exact herror _ _
    · exact execNextPrepWrite_single h 0 h.prepared
  · exact execNextPrepWrite_single h 0 h.prepared
  · exact herror _ _

theorem writeError_single (hmtu : btAttDefaultLeMtu ≤ c.attMtu) (handle ecode : ℕ) :
    Single c.attMtu .writeReq (writeError c btAttOpWriteReq handle ecode).1 := by
  unfold writeError
  rw [if_neg (by decide)]
  exact single_errorRsp hmtu .writeReq handle ecode

theorem writeCompleteCb_single (hmtu : btAttDefaultLeMtu ≤ c.attMtu) (handle err : ℕ) :
    Single c.attMtu .writeReq (writeCompleteCb c btAttOpWriteReq handle err).1 := by
  have hmtu' : 23 ≤ c.attMtu := hmtu
  unfold writeCompleteCb
  rw [if_neg (by decide)]
  split_ifs
  · exact single_errorRsp hmtu .writeReq handle err
  · refine single_send rfl ?_
    rw [List.length_nil]
    omega

/-- A Write Request that returns ends with its answer, after what its command
    makes visible. -/
theorem writeCb_single (h : Ready c) {pdu : List UInt8}
    (hfits : 2 ≤ pdu.length → ∀ a ∈ c.db.attributes, a.handle = getLe16 pdu → a.WriteFits)
    {c' : Connection} (hnext : (writeCb env c btAttOpWriteReq pdu).2 = some c') :
    ∃ (call : Option (List UInt8)) (answer : List Event), Single c.attMtu .writeReq answer ∧
      (writeCb env c btAttOpWriteReq pdu).1 = call.toList.flatMap (dispatch env c) ++ answer := by
  by_cases hto : ∃ a, WritesTo env c pdu a
  · rcases hto with ⟨a, hto⟩
    rcases mem_of_gattDbGetAttribute hto.get with ⟨ha, hhandle⟩
    rw [writeCb_eq hto] at hnext ⊢
    rcases write_cases env (c := { c with pendingWriteOp := some btAttOpWriteReq }) 0
      (some (pdu.drop 2)) h.mtu h.layout h.idle ha (hfits hto.length a ha hhandle)
      with ⟨cmd, _, _, hwrite⟩ | ⟨d, err, hwritten, _, hwrite⟩
    · rw [hwrite] at hnext
      exact absurd hnext.symm (Option.some_ne_none c')
    · rw [hwrite]
      have heq : d.attMtu = c.attMtu := hwritten.attMtu
      have hmtu : btAttDefaultLeMtu ≤ d.attMtu := h.mtu.trans (le_of_eq heq.symm)
      rw [← heq]
      exact ⟨_, _, writeCompleteCb_single hmtu a.handle err, rfl⟩
  · rcases writeCb_refused hto btAttOpWriteReq with ⟨handle, ecode, heq⟩
    rw [heq]
    exact ⟨none, _, writeError_single h.mtu handle ecode, rfl⟩

end Writes

/-- The PDUs that are not notifications. -/
def Event.asResponse : Event → Option (ℕ × List UInt8)
  | .queued opcode pdu => if opcode = btAttOpHandleValNot then none else some (opcode, pdu)
  | _ => none

/-- The PDU fits, and the transport has read it whole. -/
structure Received (c : Connection) (i : Exchange) : Prop where
  fits : Fits c i
  read : 1 + i.pdu.length ≤ c.attMtu
  security : 0 ≤ i.security

theorem Single.asResponse {mtu : ℕ} {opcode : Opcode} {events : List Event}
    (h : Single mtu opcode events) :
    ∃ rsp, events.filterMap Event.asResponse = [rsp] ∧ opcode.Answer rsp := by
  rcases h with ⟨rsp, rfl, hanswer, _⟩
  refine ⟨rsp, ?_, hanswer⟩
  have hother : rsp.1 ≠ btAttOpHandleValNot := by
    rcases hanswer with hrsp | herror
    · intro heq
      have hresponse : opcode.response ≠ some btAttOpHandleValNot := by cases opcode <;> decide
      exact hresponse (heq ▸ hrsp)
    · rw [herror.1]
      decide
  simp only [List.filterMap_cons, Event.asResponse, if_neg hother, List.filterMap_nil]

/-- What a command makes visible are notifications. -/
theorem asResponse_dispatch (env : Env) (c : Connection) (call : Option (List UInt8)) :
    (call.toList.flatMap (dispatch env c)).filterMap Event.asResponse = [] := by
  rcases call with _ | cmd
  · rfl
  rw [Option.toList_some, List.flatMap_singleton, dispatch, List.filterMap_cons,
    List.filterMap_map]
  simp only [Event.asResponse, Function.comp_def, if_true, List.filterMap_none]

section Step

variable {c : Connection} {i : Exchange}

/-- The requests other than a Write Request have one answer and nothing else. -/
theorem handleNotify_single (h : Ready c) (hi : Received c i)
    (hop : ¬(i.opcode = .writeReq ∨ i.opcode = .writeCmd)) :
    Single c.attMtu i.opcode (handleNotify c i).1 := by
  have hfits := hi.fits
  -- A single read finds its attribute among those that the PDU reads.
  have hsingle (handle : ℕ) (hmem : handle ∈ readsOf c i) (a : Attribute)
      (hget : gattDbGetAttribute c.db handle = some a) : a.ReadFits := by
    rcases mem_of_gattDbGetAttribute hget with ⟨ha, hhandle⟩
    exact readFits_of_mem hfits ha (hhandle ▸ hmem)
  rcases hopcode : i.opcode
  case mtuReq =>
    simp only [handleNotify, hopcode]
    exact exchangeMtuCb_single h.mtu i.pdu
  case readByGrpTypeReq =>
    simp only [handleNotify, hopcode]
    exact readByGrpTypeCb_single h.mtu i.pdu
  case readByTypeReq =>
    simp only [handleNotify, hopcode]
    refine readByTypeCb_single h fun hlen hzero a ha => ?_
    refine readFits_of_mem hfits (mem_of_gattDbReadByType ha) ?_
    simp only [readsOf, hopcode, if_pos (And.intro hlen hzero)]
    exact List.mem_map_of_mem ha
  case findInfoReq =>
    simp only [handleNotify, hopcode]
    exact findInfoCb_single h.mtu i.pdu
  case findByTypeReq =>
    simp only [handleNotify, hopcode]
    exact findByTypeValCb_single h.mtu i.pdu
  case writeReq => exact absurd (Or.inl hopcode) hop
  case writeCmd => exact absurd (Or.inr hopcode) hop
  case readReq =>
    simp only [handleNotify, hopcode, Prod.map, id, readCb]
    split_ifs with hlen
    · exact single_errorRsp h.mtu .readReq _ _
    · refine handleReadReq_single h rfl rfl _ 0 (hsingle _ ?_)
      simp only [readsOf, hopcode, if_pos (not_not.mp hlen), List.mem_singleton]
  case readBlobReq =>
    simp only [handleNotify, hopcode, Prod.map, id, readBlobCb]
    split_ifs with hlen
    · exact single_errorRsp h.mtu .readBlobReq _ _
    · refine handleReadReq_single h rfl rfl _ _ (hsingle _ ?_)
      simp only [readsOf, hopcode, if_pos (not_not.mp hlen), List.mem_singleton]
  case readMultReq =>
    simp only [handleNotify, hopcode]
    refine readMultipleCb_single h fun hlen => ?_
    have hreads := hfits.reads
    simp only [readsOf, hopcode, if_pos hlen] at hreads
    exact hreads
  case prepWriteReq =>
    have hprepares (hlen : 4 ≤ i.pdu.length) (hfull : c.prepQueue.length < c.maxPrepQueueLen) :
        Prepares c i := ⟨hopcode, hlen, hfull⟩
    simp only [handleNotify, hopcode]
    exact prepWriteCb_single h hi.read i.size
      (fun hlen hfull a ha hhandle hsome =>
        hfits.writes (Or.inr (hprepares hlen hfull)) a ha hhandle hsome)
      (fun hlen hfull => hfits.prepared (hprepares hlen hfull))
  case execWriteReq =>
    simp only [handleNotify, hopcode]
    exact execWriteCb_single h i.pdu

/-- A PDU after which the connection goes on makes a command visible, if it
    carries one, and then its answer, if it is a request. -/
theorem handleNotify_shape (h : Ready c) (hi : Received c i) {c' : Connection}
    (hnext : (handleNotify c i).2 = some c') :
    ∃ (call : Option (List UInt8)) (answer : List Event),
      (handleNotify c i).1 = call.toList.flatMap (dispatch i.toEnv c) ++ answer ∧
      (i.opcode = .writeCmd ∧ answer = [] ∨
        i.opcode ≠ .writeCmd ∧ Single c.attMtu i.opcode answer) := by
  by_cases hop : i.opcode = .writeReq ∨ i.opcode = .writeCmd
  · have hfits : 2 ≤ i.pdu.length → ∀ a ∈ c.db.attributes, a.handle = getLe16 i.pdu →
        a.WriteFits := fun hlen a ha hhandle hsome =>
      hi.fits.writes (Or.inl ⟨hop, hlen⟩) a ha hhandle hsome
    rcases hop with hreq | hcmd
    · have hcb : handleNotify c i = writeCb i.toEnv c btAttOpWriteReq i.pdu := by
        simp only [handleNotify, hreq]
      rw [hcb] at hnext ⊢
      rcases writeCb_single h hfits hnext with ⟨call, answer, hsingle, heq⟩
      refine ⟨call, answer, heq, Or.inr ⟨?_, hreq ▸ hsingle⟩⟩
      rw [hreq]
      decide
    · have hcb : handleNotify c i = writeCb i.toEnv c btAttOpWriteCmd i.pdu := by
        simp only [handleNotify, hcmd]
      rw [hcb] at hnext ⊢
      rcases writeCb_spec h hi.security btAttOpWriteCmd hfits
        with ⟨_, _, _, heq⟩ | ⟨answer, _, hanswer, _, heq⟩
      · rw [heq] at hnext
        exact absurd hnext.symm (Option.some_ne_none c')
      · exact ⟨_, answer, by rw [heq], Or.inl ⟨hcmd, hanswer.command rfl⟩⟩
  · refine ⟨none, _, rfl, Or.inr ⟨fun hcmd => hop (Or.inr hcmd), ?_⟩⟩
    exact handleNotify_single h hi hop

/-- So it has one answer if it is a request, and none if it is a command. -/
theorem handleNotify_answer (h : Ready c) (hi : Received c i) {c' : Connection}
    (hnext : (handleNotify c i).2 = some c') :
    List.Forall₂ (fun (i : Exchange) rsp => i.opcode.Answer rsp)
      ([i].filter fun i => i.opcode ≠ .writeCmd)
      ((handleNotify c i).1.filterMap Event.asResponse) := by
  rcases handleNotify_shape h hi hnext with ⟨call, answer, heq, hanswer⟩
  rw [heq, List.filterMap_append, asResponse_dispatch, List.nil_append]
  rcases hanswer with ⟨hcmd, rfl⟩ | ⟨hreq, hsingle⟩
  · have hnone : ([i].filter fun i => i.opcode ≠ .writeCmd) = [] :=
      List.filter_eq_nil_iff.mpr fun j hj => by
        rw [List.mem_singleton.mp hj, hcmd]
        decide
    rw [hnone]
    exact List.Forall₂.nil
  · have hkept : ([i].filter fun i => i.opcode ≠ .writeCmd) = [i] :=
      List.filter_cons_of_pos (decide_eq_true hreq)
    rcases hsingle.asResponse with ⟨rsp, hrsp, hrsp'⟩
    rw [hkept, hrsp]
    exact List.Forall₂.cons hrsp' List.Forall₂.nil

end Step

/-- On a new connection, in every run of PDUs that fit, the PDUs sent other than
    notifications are the answers to the requests, one for each and in their
    order. -/
theorem answered_in_order (globals : Globals) (mtu : ℕ) (c c' : Connection) (is : List Exchange)
    (hconnect : connect globals mtu = some c) (hreceived : gattMachine.Steps Received c is)
    (hreach : gattMachine.Reaches c is c') :
    List.Forall₂ (fun (i : Exchange) rsp => i.opcode.Answer rsp)
      (is.filter fun i => i.opcode ≠ .writeCmd)
      ((gattMachine.run c is).1.filterMap Event.asResponse) :=
  run_forall₂ Ready Received (fun _ _ _ h hi hnext => handleNotify_answer h hi hnext)
    (fun _ _ _ h hi hnext => (handleNotify_spec h hi.security hi.fits).2 _ hnext) hreceived
    (ready_connect hconnect) hreach

/-- A new connection handles a time request. -/
theorem timeRequest_received : ∃ c c', connect (Globals.init 0) 0 = some c ∧
    Received c .timeRequest ∧ (handleNotify c .timeRequest).2 = some c' := by
  rcases connect_sample with ⟨c, hconnect, hempty⟩
  have hready := ready_connect hconnect
  rcases gattDbGetAttribute_writeData hready.layout with ⟨a, hget, _⟩
  have hid : a.writes.id.toNat + 1 < 2 ^ 32 := by
    rw [hempty a (mem_of_gattDbGetAttribute hget).1]
    decide
  have hfits : Fits c .timeRequest := fits_writeData hready (Or.inl rfl) (by decide) hget hid
  have hsec : 0 ≤ Exchange.timeRequest.security := by decide
  have hread : 1 + Exchange.timeRequest.pdu.length ≤ btAttDefaultLeMtu := by decide
  have hwrites (hlen : 2 ≤ Exchange.timeRequest.pdu.length) (b : Attribute)
      (hb : b ∈ c.db.attributes) (hhandle : b.handle = getLe16 Exchange.timeRequest.pdu) :
      b.WriteFits := fun hsome => hfits.writes (Or.inl ⟨Or.inl rfl, hlen⟩) b hb hhandle hsome
  rcases writeCb_spec hready hsec btAttOpWriteReq hwrites
    with ⟨cmd, hcmd, hexit, _⟩ | ⟨answer, c', _, _, heq⟩
  · -- A time request comes back from `clock_command`.
    have htime : writeCommand 18 Exchange.timeRequest.pdu = some [0x02] := by decide
    rw [htime, Option.some.injEq] at hcmd
    rw [← hcmd, clockCommand_req_time (by decide) (by decide)] at hexit
    exact absurd hexit (Option.some_ne_none _)
  · exact ⟨c, c', hconnect, ⟨hfits, hread.trans hready.mtu, hsec⟩, congrArg Prod.snd heq⟩

theorem answered_in_order_timeRequest :
    ∃ c, connect (Globals.init 0) 0 = some c ∧
      List.Forall₂ (fun (i : Exchange) rsp => i.opcode.Answer rsp)
        ([Exchange.timeRequest].filter fun i => i.opcode ≠ .writeCmd)
        ((gattMachine.run c [.timeRequest]).1.filterMap Event.asResponse) := by
  rcases timeRequest_received with ⟨c, c', hconnect, hreceived, hnext⟩
  have hreach : gattMachine.Reaches c [.timeRequest] c' :=
    reaches_cons_iff.mpr ⟨c', hnext, reaches_nil_iff.mpr rfl⟩
  exact ⟨c, hconnect, answered_in_order (Globals.init 0) 0 c c' [.timeRequest] hconnect
    ⟨hreceived, fun _ _ => trivial⟩ hreach⟩

end Wallclock
