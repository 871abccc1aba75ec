import Wallclock.Theory.Dispatch

/-!
# The Heap of the Prepare Queue

When the handlers use the heap as they should.

The handlers allocate for the values a client prepares, and nowhere else keep
what they allocated from one request to the next. `append_prep_data` computes
the new length in 16 bits. If that wraps, the bytes go past the end of the
block, or `realloc` frees the block and the queue still points to it; every
later use of the value, and its release, is then an error.

`PrepareFits` excludes the wrap, one request at a time, and needs no more than
the request and the entry it continues. `handleNotify_intact` goes through the
handlers: under this condition none of them misuses the heap, whatever the
database holds and whatever has been read or written before, and the queue it
leaves has no freed entry. Only the handlers of prepared writes touch the queue
at all, which `Untouched` says of the others. `intact_run` carries this over a
run.

## Main definitions

* `Untouched`: A handler that leaves the transmission unit and the queue alone.
* `Intact`: A handler that leaves the queue without a freed entry.

## Theorems

* `corrupt_send`, `corrupt_errorRsp`: Sending a PDU.
* `Untouched.refl`, `Untouched.intact`: Handlers that leave the queue alone.
* `gattDbAttributeRead_untouched`, `call_untouched`,
  `gattDbAttributeWrite_untouched`: Access to an attribute.
* `processReadByType_untouched`, `readByTypeCb_untouched`,
  `handleReadReq_untouched`, `readMultipleCompleteCb_untouched`,
  `readMultipleGo_untouched`, `readMultipleCb_untouched`: The handlers that read.
* `writeError_untouched`, `writeCb_untouched`: A Write Request or a Write Command.
* `prepWriteCb_intact`: A Prepare Write Request.
* `prepWriteCompleteCb_wraps`: One that makes a value 65536 bytes long.
* `removeAllPrepData_intact`, `execNextPrepWrite_intact`, `execWriteCb_intact`:
  An Execute Write Request.
* `handleNotify_untouched`, `handleNotify_intact`: Any PDU.
* `live_connect`, `intact_run`: Any run.
-/

namespace Wallclock

open StepMachine

/-- The handler misuses no block, and leaves the transmission unit and the
    prepare queue as they are. -/
structure Untouched (c : Connection) (r : List Event × Option Connection) : Prop where
  events : .corrupt ∉ r.1
  mtu : ∀ d, r.2 = some d → d.attMtu = c.attMtu
  queue : ∀ d, r.2 = some d → d.prepQueue = c.prepQueue

/-- The handler misuses no block, and leaves no freed one in the prepare queue. -/
structure Intact (r : List Event × Option Connection) : Prop where
  events : .corrupt ∉ r.1
  live : ∀ d, r.2 = some d → d.Live

theorem corrupt_send {c : Connection} {opcode : ℕ} {pdu : List UInt8} :
    .corrupt ∉ btAttSend c opcode pdu := by
  unfold btAttSend
  split
  · exact List.not_mem_nil
  · exact fun h => Event.noConfusion (List.mem_singleton.mp h)

theorem corrupt_errorRsp {c : Connection} {opcode handle err : ℕ} :
    .corrupt ∉ btAttSendErrorRsp c opcode handle err :=
  corrupt_send

theorem Untouched.refl {c d : Connection} {events : List Event} (h : .corrupt ∉ events)
    (hmtu : d.attMtu = c.attMtu) (hqueue : d.prepQueue = c.prepQueue) :
    Untouched c (events, some d) :=
  ⟨h, fun _ heq => Option.some.inj heq ▸ hmtu, fun _ heq => Option.some.inj heq ▸ hqueue⟩

theorem Untouched.intact {c : Connection} {r : List Event × Option Connection}
    (h : Untouched c r) (hlive : c.Live) : Intact r := by
  refine ⟨h.events, fun d hd p hp => ?_⟩
  rw [h.queue d hd] at hp
  exact hlive p hp

section Accesses

variable {env : Env} {c : Connection}

theorem gattDbAttributeRead_untouched (a : Attribute) (offset : ℕ) :
    (gattDbAttributeRead c a offset).1.attMtu = c.attMtu ∧
      (gattDbAttributeRead c a offset).1.prepQueue = c.prepQueue := by
  unfold gattDbAttributeRead
  split
  · exact ⟨rfl, rfl⟩
  · split_ifs
    · exact ⟨rfl, rfl⟩
    · exact ⟨rfl, rfl⟩

/-- A write callback shows a command and its replies. -/
theorem call_untouched (env : Env) (c : Connection) (f : WriteFunc) (offset : ℕ)
    (value : Option (List UInt8)) :
    Untouched c ((f.call env c offset value).1, (f.call env c offset value).2.map (·.1)) := by
  refine ⟨?_, fun d hd => ?_, fun d hd => ?_⟩
  · cases f with
    | gattSvcChngdCccWriteCb => exact List.not_mem_nil
    | clockReadDataCccWriteCb => exact List.not_mem_nil
    | clockWriteDataWriteCb =>
        simp only [WriteFunc.call, clockWriteDataWriteCbWith]
        rcases value with _ | value
        · exact List.not_mem_nil
        simp only
        split_ifs
        · exact List.not_mem_nil
        · exact List.not_mem_nil
        · -- The command comes first, and its replies are sent like any other PDU.
          intro h
          rcases List.mem_cons.mp h with h | h
          · cases h
          · rcases List.mem_flatMap.mp h with ⟨buffer, _, hsent⟩
            exact corrupt_send hsent
  · rcases Option.map_eq_some_iff.mp hd with ⟨⟨e, err⟩, hcall, rfl⟩
    rw [(call_next hcall).1]
  · rcases Option.map_eq_some_iff.mp hd with ⟨⟨e, err⟩, hcall, rfl⟩
    rw [(call_next hcall).1]

theorem gattDbAttributeWrite_untouched (env : Env) (c : Connection) (a : Attribute) (offset : ℕ)
    (value : Option (List UInt8)) :
    Untouched c ((gattDbAttributeWrite env c a offset value).1,
      (gattDbAttributeWrite env c a offset value).2.map (·.1)) := by
  unfold gattDbAttributeWrite
  split
  · next f _ =>
    have hcall := call_untouched env c f offset value
    rcases hf : f.call env c offset value with ⟨events, _ | ⟨d, err⟩⟩
    · rw [hf] at hcall
      exact hcall
    · rw [hf] at hcall
      exact .refl hcall.events (hcall.mtu d rfl) (hcall.queue d rfl)
  · -- Without a callback the value goes to the database.
    exact .refl List.not_mem_nil rfl rfl

end Accesses

section Readers

variable {env : Env} {c : Connection}

theorem processReadByType_untouched (env : Env) (c : Connection) (op : AsyncReadOp)
    (q : List Attribute) :
    Untouched c ((processReadByType env c op q).map id some) := by
  -- Induction on the attributes still to be read. A read moves a counter only.
  induction q generalizing c op with
  | nil => exact .refl corrupt_send rfl rfl
  | cons a q ih =>
      unfold processReadByType
      split
      · exact .refl corrupt_send rfl rfl
      simp only
      split
      · exact .refl corrupt_errorRsp rfl rfl
      rcases gattDbAttributeRead_untouched (c := c) a 0 with ⟨hmtu, hqueue⟩
      rcases hread : gattDbAttributeRead c a 0 with ⟨d, _ | ⟨err, value⟩⟩
      · rw [hread] at hmtu hqueue
        exact .refl List.not_mem_nil hmtu hqueue
      · rw [hread] at hmtu hqueue
        simp only
        split
        · exact .refl corrupt_errorRsp hmtu hqueue
        · have hrest := ih (c := d) (op.complete d.attMtu a.handle value)
          exact ⟨hrest.events, fun e he => (hrest.mtu e he).trans hmtu,
            fun e he => (hrest.queue e he).trans hqueue⟩

theorem readByTypeCb_untouched (opcode : ℕ) (pdu : List UInt8) :
    Untouched c ((readByTypeCb env c opcode pdu).map id some) := by
  simp only [readByTypeCb]
  split_ifs
  · exact .refl corrupt_errorRsp rfl rfl
  · exact .refl corrupt_errorRsp rfl rfl
  · exact .refl corrupt_errorRsp rfl rfl
  · exact .refl corrupt_errorRsp rfl rfl
  · exact .refl corrupt_errorRsp rfl rfl
  · have h := processReadByType_untouched env { c with pendingReadOp := some opcode } ⟨[], 0, false⟩
      (gattDbReadByType c.db (getLe16 pdu) (getLe16 (pdu.drop 2)) (Uuid.ofLe (pdu.drop 4)))
    exact ⟨h.events, h.mtu, h.queue⟩

theorem handleReadReq_untouched (opcode handle offset : ℕ) :
    Untouched c ((handleReadReq env c opcode handle offset).map id some) := by
  unfold handleReadReq
  split
  · exact .refl corrupt_errorRsp rfl rfl
  next a _ =>
  simp only
  split_ifs
  · exact .refl corrupt_errorRsp rfl rfl
  · exact .refl corrupt_errorRsp rfl rfl
  rcases gattDbAttributeRead_untouched (c := { c with pendingReadOp := some opcode }) a offset
    with ⟨hmtu, hqueue⟩
  rcases hread : gattDbAttributeRead { c with pendingReadOp := some opcode } a offset
    with ⟨d, _ | ⟨err, value⟩⟩
  · rw [hread] at hmtu hqueue
    exact .refl List.not_mem_nil hmtu hqueue
  · rw [hread] at hmtu hqueue
    refine .refl ?_ hmtu hqueue
    split
    · exact corrupt_errorRsp
    · exact corrupt_send

theorem readMultipleCompleteCb_untouched (env : Env) (c : Connection) (rspData : List UInt8)
    (a : Attribute) :
    (readMultipleCompleteCb env c rspData a).1.attMtu = c.attMtu ∧
      (readMultipleCompleteCb env c rspData a).1.prepQueue = c.prepQueue ∧
      ∀ events, (readMultipleCompleteCb env c rspData a).2 = .error events →
        .corrupt ∉ events := by
  rcases gattDbAttributeRead_untouched (c := c) a 0 with ⟨hmtu, hqueue⟩
  unfold readMultipleCompleteCb
  rcases hread : gattDbAttributeRead c a 0 with ⟨d, _ | ⟨err, value⟩⟩
  · rw [hread] at hmtu hqueue
    exact ⟨hmtu, hqueue, fun events heq => Except.error.inj heq ▸ List.not_mem_nil⟩
  · rw [hread] at hmtu hqueue
    refine ⟨hmtu, hqueue, fun events heq => ?_⟩
    simp only at heq
    split_ifs at heq
    · exact Except.error.inj heq ▸ corrupt_errorRsp
    · exact Except.error.inj heq ▸ corrupt_errorRsp

theorem readMultipleGo_untouched (rspData : List UInt8) (a : Attribute) (handles : List ℕ) :
    Untouched c ((readMultipleGo env c rspData a handles).map id some) := by
  -- Induction on the handles that follow the one being read.
  induction handles generalizing c a rspData with
  | nil =>
      rcases readMultipleCompleteCb_untouched env c rspData a with ⟨hmtu, hqueue, herror⟩
      unfold readMultipleGo
      rcases hread : readMultipleCompleteCb env c rspData a with ⟨d, events | rsp⟩
      · rw [hread] at hmtu hqueue herror
        exact .refl (herror events rfl) hmtu hqueue
      · rw [hread] at hmtu hqueue
        exact .refl corrupt_send hmtu hqueue
  | cons handle handles ih =>
      rcases readMultipleCompleteCb_untouched env c rspData a with ⟨hmtu, hqueue, herror⟩
      unfold readMultipleGo
      rcases hread : readMultipleCompleteCb env c rspData a with ⟨d, events | rsp⟩
      · rw [hread] at hmtu hqueue herror
        exact .refl (herror events rfl) hmtu hqueue
      rw [hread] at hmtu hqueue
      simp only
      split_ifs
      · exact .refl corrupt_send hmtu hqueue
      · rcases gattDbGetAttribute d.db handle with _ | b
        · exact .refl corrupt_errorRsp hmtu hqueue
        · have hrest := ih (c := d) rsp b
          exact ⟨hrest.events, fun e he => (hrest.mtu e he).trans hmtu,
            fun e he => (hrest.queue e he).trans hqueue⟩

theorem readMultipleCb_untouched (opcode : ℕ) (pdu : List UInt8) :
    Untouched c ((readMultipleCb env c opcode pdu).map id some) := by
  unfold readMultipleCb
  split_ifs
  · exact .refl corrupt_errorRsp rfl rfl
  split
  · exact .refl List.not_mem_nil rfl rfl
  split
  · exact .refl corrupt_errorRsp rfl rfl
  · exact readMultipleGo_untouched _ _ _

end Readers

section Writers

variable {env : Env} {c : Connection}

theorem writeError_untouched (opcode handle ecode : ℕ) :
    Untouched c (writeError c opcode handle ecode) := by
  refine .refl ?_ rfl rfl
  split
  · exact List.not_mem_nil
  · exact corrupt_errorRsp

theorem writeCb_untouched (opcode : ℕ) (pdu : List UInt8) :
    Untouched c (writeCb env c opcode pdu) := by
  unfold writeCb
  split
  · exact writeError_untouched _ _ _
  simp only
  split
  · exact writeError_untouched _ _ _
  next a _ =>
  split_ifs
  · exact writeError_untouched _ _ _
  · exact writeError_untouched _ _ _
  -- That a write is pending does not show in the queue.
  have hwrite := gattDbAttributeWrite_untouched env { c with pendingWriteOp := some opcode } a 0
    (some (pdu.drop 2))
  rcases h : gattDbAttributeWrite env { c with pendingWriteOp := some opcode } a 0
    (some (pdu.drop 2)) with ⟨events, _ | ⟨d, _ | err⟩⟩
  · rw [h] at hwrite
    exact ⟨hwrite.events, hwrite.mtu, hwrite.queue⟩
  · rw [h] at hwrite
    exact ⟨hwrite.events, hwrite.mtu, hwrite.queue⟩
  · rw [h] at hwrite
    refine .refl (fun hmem => ?_) (hwrite.mtu d rfl) (hwrite.queue d rfl)
    rcases List.mem_append.mp hmem with hmem | hmem
    · exact hwrite.events hmem
    · simp only [writeCompleteCb] at hmem
      split_ifs at hmem
      · exact List.not_mem_nil hmem
      · exact corrupt_errorRsp hmem
      · exact corrupt_send hmem

end Writers

section Prepared

variable {env : Env} {c : Connection}

/-- A Prepare Write Request keeps the blocks that are there, unless it makes a
    value too long. -/
theorem prepWriteCb_intact (hlive : c.Live) (opcode : ℕ) {pdu : List UInt8}
    (hsize : 1 + pdu.length < 2 ^ 16)
    (hprep : 4 ≤ pdu.length → c.prepQueue.length < c.maxPrepQueueLen →
      ∀ p, c.prepQueue.getLast? = some p → p.handle = getLe16 pdu →
        getLe16 (pdu.drop 2) = p.value.length + p.offset →
          p.value.length + (pdu.length - 4) < 2 ^ 16) :
    Intact (prepWriteCb env c opcode pdu) := by
  have herror {handle err : ℕ} : Intact (btAttSendErrorRsp c opcode handle err, some c) :=
    (Untouched.refl corrupt_errorRsp rfl rfl).intact hlive
  unfold prepWriteCb
  split_ifs with hlen hfull
  · exact herror
  · exact herror
  rw [not_lt] at hlen
  rw [ge_iff_le, not_le] at hfull
  simp only
  split
  · exact herror
  next a _ =>
  split_ifs
  · exact herror
  -- The callback, if there is one, is asked with no value at all.
  have hwrite := gattDbAttributeWrite_untouched env c a (getLe16 (pdu.drop 2)) none
  rcases h : gattDbAttributeWrite env c a (getLe16 (pdu.drop 2)) none
    with ⟨events, _ | ⟨d, _ | err⟩⟩
  · rw [h] at hwrite
    exact hwrite.intact hlive
  · rw [h] at hwrite
    exact hwrite.intact hlive
  rw [h] at hwrite
  have hqueue : d.prepQueue = c.prepQueue := hwrite.queue d rfl
  have hd : d.Live := (hwrite.intact hlive).live d rfl
  simp only [prepWriteCompleteCb]
  split_ifs
  · exact ⟨fun hmem => (List.mem_append.mp hmem).elim hwrite.events corrupt_errorRsp,
      fun _ heq => Option.some.inj heq ▸ hd⟩
  -- The write succeeded, and the value is stored.
  have hdrop : (pdu.drop 4).length = pdu.length - 4 := List.length_drop
  rcases storePrepData_spec hd (getLe16 (pdu.drop 2)) (pdu.drop 4) (by omega)
    (by rw [hqueue, hdrop]; exact hprep hlen hfull) with ⟨queue, hstore, hentries⟩
  rw [hstore]
  exact ⟨fun hmem => (List.mem_append.mp hmem).elim hwrite.events corrupt_send,
    fun _ heq => Option.some.inj heq ▸ fun p hp => (hentries p hp).1⟩

/-- A value that is continued to 65536 bytes is freed, and stays in the queue. The
    client gets an error and a response for its one request. -/
theorem prepWriteCompleteCb_wraps {p : PrepWriteData} {pdu : List UInt8}
    (hlast : c.prepQueue.getLast? = some p) (hlive : p.freed = false)
    (hhandle : p.handle = getLe16 pdu)
    (hoffset : getLe16 (pdu.drop 2) = p.value.length + p.offset) (hbytes : pdu.drop 4 ≠ [])
    (htotal : p.value.length + (pdu.drop 4).length = 2 ^ 16) :
    prepWriteCompleteCb c 0 pdu =
      (btAttSendErrorRsp c btAttOpPrepWriteRsp p.handle btAttErrorInsufficientResources ++
          btAttSend c btAttOpPrepWriteRsp pdu,
        some { c with prepQueue := c.prepQueue.dropLast ++ [{ p with freed := true }] }) := by
  have hsome : (pdu.drop 4).length ≠ 0 := fun h => hbytes (List.length_eq_zero_iff.mp h)
  have happend : appendPrepData p (pdu.drop 4) = some ({ p with freed := true }, false) := by
    unfold appendPrepData
    rw [if_neg hsome, if_neg (by rw [hlive]; exact Bool.false_ne_true)]
    simp only [htotal, lt_irrefl, if_false, if_true]
  have hstore : storePrepData c (getLe16 pdu) (getLe16 (pdu.drop 2)) (pdu.drop 4) =
      some ({ c with prepQueue := c.prepQueue.dropLast ++ [{ p with freed := true }] }, false) := by
    unfold storePrepData
    simp only [hlast]
    rw [if_pos ⟨hhandle, hoffset⟩, happend]
    rfl
  unfold prepWriteCompleteCb
  simp only [ne_eq, not_true_eq_false, if_false, hstore, Bool.false_eq_true, hhandle]
  rfl

/-- Blocks that are there are released once. -/
theorem removeAllPrepData_intact (hlive : c.Live) {answer : List Event}
    (hanswer : .corrupt ∉ answer) : Intact (removeAllPrepData c answer) := by
  rw [removeAllPrepData_eq hlive]
  exact ⟨hanswer, fun _ heq => Option.some.inj heq ▸ fun p hp => absurd hp List.not_mem_nil⟩

theorem execNextPrepWrite_intact (ehandle : ℕ) {queue : List PrepWriteData}
    (hlive : ∀ p ∈ queue, p.freed = false) : Intact (execNextPrepWrite env c ehandle queue) := by
  -- Induction on the queue, whose entries are released one after another.
  induction queue generalizing c ehandle with
  | nil => exact ⟨corrupt_send, fun _ heq => Option.some.inj heq ▸ fun p hp =>
      absurd hp List.not_mem_nil⟩
  | cons p queue ih =>
      have hrest : ∀ q ∈ queue, q.freed = false := fun q hq =>
        hlive q (List.mem_cons_of_mem p hq)
      have hpop : Connection.Live { c with prepQueue := queue } := hrest
      unfold execNextPrepWrite
      simp only
      split
      · exact removeAllPrepData_intact hpop corrupt_errorRsp
      next a _ =>
      -- The block is there, whatever is in it.
      simp only [hlive p List.mem_cons_self, Bool.false_eq_true, if_false]
      generalize (if p.value.length = 0 then none else some p.value) = value
      have hwrite := gattDbAttributeWrite_untouched env { c with prepQueue := queue } a p.offset
        value
      rcases h : gattDbAttributeWrite env { c with prepQueue := queue } a p.offset value
        with ⟨events, _ | ⟨d, _ | err⟩⟩
      · rw [h] at hwrite
        exact hwrite.intact hpop
      · rw [h] at hwrite
        exact hwrite.intact hpop
      rw [h] at hwrite
      have hnext : Intact (if err ≠ 0 then execError d a.handle err
          else execNextPrepWrite env d a.handle queue) := by
        split_ifs
        · exact removeAllPrepData_intact ((hwrite.intact hpop).live d rfl) corrupt_errorRsp
        · exact ih a.handle hrest
      exact ⟨fun hmem => (List.mem_append.mp hmem).elim hwrite.events hnext.events, hnext.live⟩

theorem execWriteCb_intact (hlive : c.Live) (opcode : ℕ) (pdu : List UInt8) :
    Intact (execWriteCb env c opcode pdu) := by
  unfold execWriteCb
  simp only
  split_ifs
  · exact removeAllPrepData_intact hlive corrupt_errorRsp
  · exact removeAllPrepData_intact hlive corrupt_send
  · split
    · exact removeAllPrepData_intact hlive corrupt_errorRsp
    · exact execNextPrepWrite_intact 0 hlive
  · exact execNextPrepWrite_intact 0 hlive
  · exact removeAllPrepData_intact hlive corrupt_errorRsp

end Prepared

/-- Only an Exchange MTU Request changes the transmission unit, and only the two
    requests for prepared writes the prepare queue. -/
theorem handleNotify_untouched {c : Connection} {i : Exchange}
    (hmtu : ¬(i.opcode = .mtuReq ∧ i.pdu.length = 2)) (hprep : i.opcode ≠ .prepWriteReq)
    (hexec : i.opcode ≠ .execWriteReq) : Untouched c (handleNotify c i) := by
  -- One case for each handler. Those that only look at the database change nothing.
  unfold handleNotify
  rcases hop : i.opcode
  case mtuReq =>
    have hlen : i.pdu.length ≠ 2 := fun hlen => hmtu ⟨hop, hlen⟩
    simp only [exchangeMtuCb, if_pos hlen]
    exact .refl corrupt_errorRsp rfl rfl
  case readByGrpTypeReq => exact .refl (fun h => readByGrpTypeCb_plain _ _ _ _ h) rfl rfl
  case readByTypeReq => exact readByTypeCb_untouched _ _
  case findInfoReq => exact .refl (fun h => findInfoCb_plain _ _ _ _ h) rfl rfl
  case findByTypeReq => exact .refl (fun h => findByTypeValCb_plain _ _ _ _ h) rfl rfl
  case writeReq => exact writeCb_untouched _ _
  case writeCmd => exact writeCb_untouched _ _
  case readReq =>
    simp only [readCb]
    split_ifs
    · exact .refl corrupt_errorRsp rfl rfl
    · exact handleReadReq_untouched _ _ _
  case readBlobReq =>
    simp only [readBlobCb]
    split_ifs
    · exact .refl corrupt_errorRsp rfl rfl
    · exact handleReadReq_untouched _ _ _
  case readMultReq => exact readMultipleCb_untouched _ _
  case prepWriteReq => exact absurd hop hprep
  case execWriteReq => exact absurd hop hexec

/-- No handler misuses the heap, unless a prepared value gets too long. -/
theorem handleNotify_intact {c : Connection} {i : Exchange} (hlive : c.Live)
    (hfits : PrepareFits c i) : Intact (handleNotify c i) := by
  by_cases hprep : i.opcode = .prepWriteReq
  · simp only [handleNotify, hprep]
    exact prepWriteCb_intact hlive btAttOpPrepWriteReq i.size
      fun hlen hfull => hfits ⟨hprep, hlen, hfull⟩
  by_cases hexec : i.opcode = .execWriteReq
  · simp only [handleNotify, hexec]
    exact execWriteCb_intact hlive btAttOpExecWriteReq i.pdu
  by_cases hmtu : i.opcode = .mtuReq
  · simp only [handleNotify, hmtu, exchangeMtuCb]
    split_ifs
    · exact ⟨corrupt_errorRsp, fun _ heq => Option.some.inj heq ▸ hlive⟩
    · exact ⟨corrupt_send, fun _ heq => Option.some.inj heq ▸ hlive⟩
  · exact (handleNotify_untouched (fun h => hmtu h.1) hprep hexec).intact hlive

theorem live_connect {globals : Globals} {mtu : ℕ} {c : Connection}
    (h : connect globals mtu = some c) : c.Live :=
  (ready_connect h).live

/-- A run that makes no prepared value too long misuses no block. -/
theorem intact_run {c : Connection} {is : List Exchange} (hlive : c.Live)
    (hsteps : gattMachine.Steps PrepareFits c is) : .corrupt ∉ (gattMachine.run c is).1 := by
  intro hmem
  refine run_outputs (E := fun e => e ≠ .corrupt) Connection.Live PrepareFits ?_ ?_ hsteps hlive
    .corrupt hmem rfl
  · intro d i hd hi e he heq
    exact (handleNotify_intact hd hi).events (heq ▸ he)
  · intro d i d' hd hi hnext
    exact (handleNotify_intact hd hi).live d' hnext

end Wallclock
