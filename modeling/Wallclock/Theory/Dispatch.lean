import Wallclock.Theory.Writes

/-!
# Exactly-Once Dispatch

What a client's PDUs make the server do, over whole connections. Every Write
Request and Write Command that carries a command is handed to `clock_command`
once, in order and with exactly its value, and nothing else is; the
notifications it causes are whole, each Write Request gets one answer and each
Write Command none, and nothing is pending between two PDUs.

This does not hold of every run, for two reasons. An attribute numbers its
reads and its writes in 32 bits, and the database refuses the answer to the
operation with number zero, so that operation stays pending and every later
write of the connection is refused. The counters of the transport and of the
notification list step over zero when they wrap; these do not. And the length
of a prepared value is kept in 16 bits, so a Prepare Write that continues a
value past that length copies its bytes past the end of the block. `Fits` is
the condition on a PDU and the state it arrives in that excludes both, and
`exactlyOnce` is the theorem about runs in which every PDU meets it.

## Main definitions

* `Event.asCommand`, `Event.asNotification`, `Event.asAnswer`: Views of what a
  PDU makes visible.
* `commandOf`: The command that a PDU carries.
* `readsOf`: The attributes that a PDU reads.
* `Prepares`, `Writes`: The PDUs that prepare or make a write.
* `Fits`: No identifier wraps and no prepared value becomes too long.
* `Answered`: One PDU is handled as it should be.
* `Connection.Unblocked`: Nothing is pending.
* `ExactlyOnce`: A whole run is.
* `Env.sample`, `Exchange.ignored`, `Exchange.timeRequest`: Sample PDUs.

## Theorems

* `ready_connect`: A new connection is ready.
* `connect_sample`: A connection starts with every counter at zero.
* `filterMap_plain`, `filterMap_dispatch`, `whole_of_reply`, `Answers.plain`:
  The views of the handlers' events.
* `readFits_of_mem`: A single read fits.
* `answered_of_plain`: A PDU that only queues plain PDUs.
* `handleNotify_other`: The requests that do not write directly.
* `handleNotify_write`: The two that do.
* `handleNotify_spec`: Any PDU.
* `fits_writeData`: When a write of a command fits.
* `exactlyOnce`: Exactly-once dispatch over runs.
* `exactlyOnce_timeRequest`: A run of one PDU.
* `handleNotify_ignored`, `reaches_ignored`: Commands that are ignored.
* `handleNotify_pending`: A write while another is pending.
* `exactlyOnce_wrapped`: A run in which an identifier wraps.
-/

namespace Wallclock

open ByteCodec GattDb StepMachine

def Event.asCommand : Event → Option (List UInt8)
  | .command value => some value
  | _ => none

def Event.asNotification : Event → Option (List UInt8)
  | .queued opcode pdu => if opcode = btAttOpHandleValNot then some pdu else none
  | _ => none

/-- A Write Response or an Error Response. -/
def Event.asAnswer : Event → Option (List UInt8)
  | .queued opcode pdu =>
    if opcode = btAttOpWriteRsp ∨ opcode = btAttOpErrorRsp then some pdu else none
  | _ => none

/-- The command that a PDU carries to the value with the given handle. -/
def commandOf (handle : ℕ) (i : Exchange) : Option (List UInt8) :=
  if i.opcode = .writeReq ∨ i.opcode = .writeCmd then writeCommand handle i.pdu else none

/-- The handles of the attributes that a PDU reads, once for each read. -/
def readsOf (c : Connection) (i : Exchange) : List ℕ :=
  match i.opcode with
  | .readReq => if i.pdu.length = 2 then [getLe16 i.pdu] else []
  | .readBlobReq => if i.pdu.length = 4 then [getLe16 i.pdu] else []
  | .readByTypeReq =>
    if (i.pdu.length = 6 ∨ i.pdu.length = 20) ∧ getLe16 i.pdu ≠ 0 then
      (gattDbReadByType c.db (getLe16 i.pdu) (getLe16 (i.pdu.drop 2))
        (Uuid.ofLe (i.pdu.drop 4))).map Attribute.handle
    else []
  | .readMultReq =>
    if 4 ≤ i.pdu.length then readMultipleReads i.toEnv c (c.attMtu - 1) (getHandles i.pdu) else []
  | _ => []

/-- Whether a Prepare Write Request is considered at all. -/
def Prepares (c : Connection) (i : Exchange) : Prop :=
  i.opcode = .prepWriteReq ∧ 4 ≤ i.pdu.length ∧ c.prepQueue.length < c.maxPrepQueueLen

/-- Whether a PDU writes to the attribute with its handle. -/
def Writes (c : Connection) (i : Exchange) : Prop :=
  (i.opcode = .writeReq ∨ i.opcode = .writeCmd) ∧ 2 ≤ i.pdu.length ∨ Prepares c i

/-- The condition on a Prepare Write Request and the state it arrives in: it
    does not continue the last prepared value past 65535 bytes. -/
def PrepareFits (c : Connection) (i : Exchange) : Prop :=
  Prepares c i → ∀ p, c.prepQueue.getLast? = some p → p.handle = getLe16 i.pdu →
    getLe16 (i.pdu.drop 2) = p.value.length + p.offset →
      p.value.length + (i.pdu.length - 4) < 2 ^ 16

/-- The condition on a PDU and the state it arrives in: it does not read or
    write an attribute with a callback for the 2 ^ 32nd time, and does not
    continue a prepared value past 65535 bytes. -/
structure Fits (c : Connection) (i : Exchange) : Prop where
  reads : ∀ a ∈ c.db.attributes, a.readFunc.isSome →
    a.reads.id.toNat + (readsOf c i).count a.handle < 2 ^ 32
  writes : Writes c i → ∀ a ∈ c.db.attributes, a.handle = getLe16 i.pdu → a.writeFunc.isSome →
    a.writes.id.toNat + 1 < 2 ^ 32
  prepared : PrepareFits c i

/-- One PDU is handled as it should be. -/
structure Answered (c : Connection) (i : Exchange) : Prop where
  /-- The command it carries is dispatched, and no other. -/
  commands : (handleNotify c i).1.filterMap Event.asCommand =
    (commandOf c.server.clockWriteDataHandle i).toList
  /-- The replies of `clock_command` are queued as notifications, whole. -/
  notifications : (handleNotify c i).1.filterMap Event.asNotification =
    (commandOf c.server.clockWriteDataHandle i).toList.flatMap fun cmd =>
      (clockCommand i.stack i.clock c.globals cmd).1.map fun reply =>
        leBytes 2 c.server.clockReadDataHandle ++ reply
  /-- A notification has nine value bytes or one. -/
  whole : ∀ pdu ∈ (handleNotify c i).1.filterMap Event.asNotification,
    (pdu.drop 2).length = 9 ∨ (pdu.drop 2).length = 1
  /-- A Write Request has one answer, unless the process exits. -/
  request : i.opcode = .writeReq → (handleNotify c i).2.isSome →
    ((handleNotify c i).1.filterMap Event.asAnswer).length = 1
  /-- A Write Command has none. -/
  command : i.opcode = .writeCmd → (handleNotify c i).1.filterMap Event.asAnswer = []
  /-- Nothing but an exit inside `clock_command` ends the run. -/
  exit : (handleNotify c i).2 = none → ∃ cmd, commandOf c.server.clockWriteDataHandle i = some cmd ∧
    (clockCommand i.stack i.clock c.globals cmd).2 = none
  /-- The heap is not misused. -/
  bounded : .corrupt ∉ (handleNotify c i).1

/-- No read and no write is pending. -/
structure Connection.Unblocked (c : Connection) : Prop where
  noRead : c.pendingReadOp = none
  noWrite : c.pendingWriteOp = none
  idle : c.db.Idle

/-- A run is as it should be: the commands dispatched are those that the PDUs
    carry, up to a process exit; every PDU is handled as it should be, and
    nothing is pending before and after it. -/
structure ExactlyOnce (c : Connection) (is : List Exchange) : Prop where
  commands : (gattMachine.run c is).1.filterMap Event.asCommand =
    (gattMachine.consumed c is).filterMap (commandOf c.server.clockWriteDataHandle)
  answered : ∀ before i after m, is = before ++ i :: after → gattMachine.Reaches c before m →
    Answered m i
  unblocked : ∀ before after m, is = before ++ after → gattMachine.Reaches c before m →
    m.Unblocked

theorem ready_connect {globals : Globals} {mtu : ℕ} {c : Connection}
    (h : connect globals mtu = some c) : Ready c := by
  rcases populateDb_layout with ⟨db, hdb, hlayout, hempty⟩
  rw [connect, hdb, Option.bind_eq_bind, Option.bind_some, Option.some.injEq] at h
  rw [← h]
  refine ⟨hlayout, fun a ha => ?_, le_refl _, rfl, rfl, fun p hp => absurd hp List.not_mem_nil,
    rfl⟩
  rw [(hempty a ha).1, (hempty a ha).2]
  exact ⟨rfl, rfl⟩

/-- A connection starts with every counter at zero. -/
theorem connect_sample : ∃ c, connect (Globals.init 0) 0 = some c ∧
    ∀ a ∈ c.db.attributes, a.writes = .empty := by
  rcases populateDb_layout with ⟨db, hdb, _, hempty⟩
  refine ⟨btGattServerNew ⟨10, false, 14, 18, false⟩ db (Globals.init 0) 0 0, ?_,
    fun a ha => (hempty a ha).2⟩
  rw [connect, hdb]
  rfl

section Views

variable {events : List Event}

/-- Plain PDUs show no command and no notification. -/
theorem filterMap_plain (h : ∀ e ∈ events, e.Plain) :
    events.filterMap Event.asCommand = [] ∧ events.filterMap Event.asNotification = [] ∧
      .corrupt ∉ events := by
  refine ⟨List.filterMap_eq_nil_iff.mpr fun e he => ?_,
    List.filterMap_eq_nil_iff.mpr fun e he => ?_, fun he => h _ he⟩
  · cases e with
    | command value => exact absurd (h _ he) not_false
    | queued opcode pdu => rfl
    | corrupt => rfl
  · cases e with
    | command value => rfl
    | queued opcode pdu => exact if_neg (h _ he)
    | corrupt => rfl

/-- A call of `clock_command` shows itself and its replies. -/
theorem filterMap_dispatch (env : Env) (c : Connection) (call : Option (List UInt8)) :
    (call.toList.flatMap (dispatch env c)).filterMap Event.asCommand = call.toList ∧
      (call.toList.flatMap (dispatch env c)).filterMap Event.asNotification =
        (call.toList.flatMap fun cmd => (clockCommand env.stack env.clock c.globals cmd).1.map
          fun reply => leBytes 2 c.server.clockReadDataHandle ++ reply) ∧
      (call.toList.flatMap (dispatch env c)).filterMap Event.asAnswer = [] ∧
      .corrupt ∉ call.toList.flatMap (dispatch env c) := by
  rcases call with _ | cmd
  · exact ⟨rfl, rfl, rfl, List.not_mem_nil⟩
  simp only [Option.toList_some, List.flatMap_singleton]
  unfold dispatch
  refine ⟨?_, ?_, ?_, ?_⟩
  · rw [List.filterMap_cons, List.filterMap_map]
    simp only [Event.asCommand, Function.comp_def, List.filterMap_none]
  · rw [List.filterMap_cons, List.filterMap_map]
    simp only [Event.asNotification, Function.comp_def, if_true, List.filterMap_eq_map']
  · have hop :
        ¬(btAttOpHandleValNot = btAttOpWriteRsp ∨ btAttOpHandleValNot = btAttOpErrorRsp) := by
      decide
    rw [List.filterMap_cons, List.filterMap_map]
    simp only [Event.asAnswer, Function.comp_def, if_neg hop, List.filterMap_none]
  · simp only [List.mem_cons, List.mem_map, reduceCtorEq, and_false, exists_false, or_self,
      not_false_eq_true]

/-- Every reply of `clock_command` is whole in its notification. -/
theorem whole_of_reply {env : Env} {c : Connection} (call : Option (List UInt8))
    {pdu : List UInt8} (h : pdu ∈ call.toList.flatMap fun cmd =>
      (clockCommand env.stack env.clock c.globals cmd).1.map
        fun reply => leBytes 2 c.server.clockReadDataHandle ++ reply) :
    (pdu.drop 2).length = 9 ∨ (pdu.drop 2).length = 1 := by
  rcases List.mem_flatMap.mp h with ⟨cmd, _, hcmd⟩
  rcases List.mem_map.mp hcmd with ⟨reply, hreply, heq⟩
  have hdrop : pdu.drop 2 = reply := by
    rw [← heq]
    exact List.drop_left' (length_leBytes 2 _)
  rw [hdrop]
  exact length_clockCommand hreply

theorem Answers.plain {opcode : ℕ} (h : Answers opcode events) : ∀ e ∈ events, e.Plain := by
  intro e he
  by_cases hop : opcode = btAttOpWriteCmd
  · rw [h.command hop] at he
    exact absurd he List.not_mem_nil
  · rcases h.request hop with ⟨rsp, pdu, heq, hrsp⟩
    rw [heq, List.mem_singleton] at he
    rw [he]
    rcases hrsp with rfl | rfl
    · exact (show btAttOpWriteRsp ≠ btAttOpHandleValNot by decide)
    · exact (show btAttOpErrorRsp ≠ btAttOpHandleValNot by decide)

end Views

section Step

variable {c : Connection} {i : Exchange}

theorem answered_of_plain {events : List Event} {c' : Connection}
    (heq : handleNotify c i = (events, some c')) (hplain : ∀ e ∈ events, e.Plain)
    (hop : ¬(i.opcode = .writeReq ∨ i.opcode = .writeCmd)) : Answered c i := by
  rcases filterMap_plain hplain with ⟨hcommand, hnotification, hcorrupt⟩
  have hnone : ∀ handle, commandOf handle i = none := fun handle => if_neg hop
  rw [not_or] at hop
  refine ⟨?_, ?_, ?_, fun h => absurd h hop.1, fun h => absurd h hop.2, ?_, ?_⟩
  · rw [heq, hnone]
    exact hcommand
  · rw [heq, hnone]
    exact hnotification
  · rw [heq, hnotification]
    exact fun pdu hpdu => absurd hpdu List.not_mem_nil
  · rw [heq]
    exact fun h => absurd h (Option.some_ne_none c')
  · rw [heq]
    exact hcorrupt

/-- An attribute that a PDU reads once has room for that read. -/
theorem readFits_of_mem (hfits : Fits c i) {a : Attribute} (ha : a ∈ c.db.attributes)
    (hread : a.handle ∈ readsOf c i) : a.ReadFits := by
  intro hsome
  have hcount := hfits.reads a ha hsome
  have hpos := List.count_pos_iff.mpr hread
  omega

/-- The requests other than the two that write directly queue plain PDUs and
    leave the connection ready. -/
theorem handleNotify_other (h : Ready c) (hfits : Fits c i)
    (hop : ¬(i.opcode = .writeReq ∨ i.opcode = .writeCmd)) :
    ∃ events c', (∀ e ∈ events, e.Plain) ∧ Ready c' ∧
      handleNotify c i = (events, some c') := by
  -- A single read finds its attribute among those that the PDU reads.
  have hsingle : ∀ handle, handle ∈ readsOf c i → ∀ a, gattDbGetAttribute c.db handle = some a →
      checkPermissions i.toEnv c a readMask = 0 → a.ReadFits := fun handle hmem a hget _ => by
    rcases mem_of_gattDbGetAttribute hget with ⟨ha, hhandle⟩
    exact readFits_of_mem hfits ha (hhandle ▸ hmem)
  have hquiet : ∀ r, Quiet c r → handleNotify c i = Prod.map id some r → ∃ events c',
      (∀ e ∈ events, e.Plain) ∧ Ready c' ∧ handleNotify c i = (events, some c') :=
    fun r hr heq => ⟨r.1, r.2, hr.plain, h.quiet hr, heq⟩
  rcases hopcode : i.opcode
  case mtuReq =>
    rcases exchangeMtuCb_eq c btAttOpMtuReq i.pdu h.mtu with ⟨hplain, mtu, attMtu, hle, heq⟩
    refine ⟨_, { c with mtu, attMtu }, hplain, ?_, ?_⟩
    · exact ⟨h.layout, h.idle, hle, h.noRead, h.noWrite, h.prepared, h.handle⟩
    · simp only [handleNotify, hopcode, Prod.map, heq, id]
  case readByGrpTypeReq =>
    exact ⟨_, c, readByGrpTypeCb_plain c btAttOpReadByGrpTypeReq i.pdu, h,
      by simp only [handleNotify, hopcode]⟩
  case readByTypeReq =>
    refine hquiet (readByTypeCb i.toEnv c btAttOpReadByTypeReq i.pdu)
      (readByTypeCb_quiet h.layout h.idle h.noRead _ fun hlen hzero a ha => ?_)
      (by simp only [handleNotify, hopcode])
    refine readFits_of_mem hfits (mem_of_gattDbReadByType ha) ?_
    simp only [readsOf, hopcode, if_pos (And.intro hlen hzero)]
    exact List.mem_map_of_mem ha
  case findInfoReq =>
    exact ⟨_, c, findInfoCb_plain c btAttOpFindInfoReq i.pdu, h,
      by simp only [handleNotify, hopcode]⟩
  case findByTypeReq =>
    exact ⟨_, c, findByTypeValCb_plain c btAttOpFindByTypeReq i.pdu, h,
      by simp only [handleNotify, hopcode]⟩
  case writeReq => exact absurd (Or.inl hopcode) hop
  case writeCmd => exact absurd (Or.inr hopcode) hop
  case readReq =>
    refine hquiet (readCb i.toEnv c btAttOpReadReq i.pdu)
      (readCb_quiet h.layout h.idle h.noRead _ fun hlen => hsingle _ ?_)
      (by simp only [handleNotify, hopcode])
    simp only [readsOf, hopcode, if_pos hlen, List.mem_singleton]
  case readBlobReq =>
    refine hquiet (readBlobCb i.toEnv c btAttOpReadBlobReq i.pdu)
      (readBlobCb_quiet h.layout h.idle h.noRead _ fun hlen => hsingle _ ?_)
      (by simp only [handleNotify, hopcode])
    simp only [readsOf, hopcode, if_pos hlen, List.mem_singleton]
  case readMultReq =>
    refine hquiet (readMultipleCb i.toEnv c btAttOpReadMultReq i.pdu)
      (readMultipleCb_quiet h.layout h.idle _ fun hlen => ?_)
      (by simp only [handleNotify, hopcode])
    have hreads := hfits.reads
    simp only [readsOf, hopcode, if_pos hlen] at hreads
    exact hreads
  case prepWriteReq =>
    have hprepares : 4 ≤ i.pdu.length → c.prepQueue.length < c.maxPrepQueueLen → Prepares c i :=
      fun hlen hfull => ⟨hopcode, hlen, hfull⟩
    rcases prepWriteCb_spec h btAttOpPrepWriteReq i.size
      (fun hlen hfull a ha hhandle hsome =>
        hfits.writes (Or.inr (hprepares hlen hfull)) a ha hhandle hsome)
      (fun hlen hfull => hfits.prepared (hprepares hlen hfull))
      with ⟨answer, c', hplain, hready, heq⟩
    exact ⟨answer, c', hplain, hready, by simp only [handleNotify, hopcode]; exact heq⟩
  case execWriteReq =>
    rcases execWriteCb_spec h btAttOpExecWriteReq i.pdu with ⟨answer, c', hplain, hready, heq⟩
    exact ⟨answer, c', hplain, hready, by simp only [handleNotify, hopcode]; exact heq⟩

/-- A Write Request or a Write Command. -/
theorem handleNotify_write (h : Ready c) (hsec : 0 ≤ i.security) (hfits : Fits c i)
    (hop : i.opcode = .writeReq ∨ i.opcode = .writeCmd) :
    Answered c i ∧ ∀ c', (handleNotify c i).2 = some c' → Ready c' := by
  -- Both PDUs go to one handler, with the opcode that says whether to answer.
  have hcb : ∃ opcode, handleNotify c i = writeCb i.toEnv c opcode i.pdu ∧
      (i.opcode = .writeReq → opcode ≠ btAttOpWriteCmd) ∧
      (i.opcode = .writeCmd → opcode = btAttOpWriteCmd) := by
    rcases hop with hop | hop
    · refine ⟨btAttOpWriteReq, by simp only [handleNotify, hop], fun _ => by decide, ?_⟩
      rw [hop]
      exact fun h => absurd h (by decide)
    · refine ⟨btAttOpWriteCmd, by simp only [handleNotify, hop], ?_, fun _ => rfl⟩
      rw [hop]
      exact fun h => absurd h (by decide)
  rcases hcb with ⟨opcode, hcb, hreq, hcmd⟩
  have hof : commandOf c.server.clockWriteDataHandle i = writeCommand 18 i.pdu := by
    rw [h.handle]
    exact if_pos hop
  rcases writeCb_spec h hsec opcode (fun hlen a ha hhandle hsome =>
    hfits.writes (Or.inl ⟨hop, hlen⟩) a ha hhandle hsome)
    with ⟨cmd, hcommand, hexit, heq⟩ | ⟨answer, c', hanswer, hwritten, heq⟩
  · -- The process exits inside `clock_command`.
    rcases filterMap_dispatch i.toEnv c (some cmd) with ⟨hc, hn, ha, ho⟩
    rw [Option.toList_some, List.flatMap_singleton] at hc hn ha ho
    rw [heq] at hcb
    rw [hcommand] at hof
    refine ⟨⟨?_, ?_, ?_, ?_, ?_, ?_, ?_⟩, ?_⟩
    · rw [hcb, hof]
      exact hc
    · rw [hcb, hof]
      exact hn
    · rw [hcb, hn]
      exact fun pdu hpdu => whole_of_reply (some cmd) hpdu
    · rw [hcb]
      exact fun _ hsome => absurd hsome Bool.false_ne_true
    · rw [hcb]
      exact fun _ => ha
    · exact fun _ => ⟨cmd, hof, hexit⟩
    · rw [hcb]
      exact ho
    · rw [hcb]
      exact fun c' hc' => absurd hc'.symm (Option.some_ne_none c')
  · -- The call comes back, and the write is answered.
    rcases filterMap_dispatch i.toEnv c (writeCommand 18 i.pdu) with ⟨hc, hn, ha, ho⟩
    rcases filterMap_plain hanswer.plain with ⟨hc', hn', ho'⟩
    rw [heq] at hcb
    refine ⟨⟨?_, ?_, ?_, ?_, ?_, ?_, ?_⟩, ?_⟩
    · rw [hcb, hof, List.filterMap_append, hc, hc', List.append_nil]
    · rw [hcb, hof, List.filterMap_append, hn, hn', List.append_nil]
    · rw [hcb, List.filterMap_append, hn, hn', List.append_nil]
      exact fun pdu hpdu => whole_of_reply _ hpdu
    · intro hwrite _
      rcases hanswer.request (hreq hwrite) with ⟨rsp, pdu, hsingle, hrsp⟩
      rw [hcb, List.filterMap_append, ha, hsingle, List.nil_append]
      simp only [List.filterMap_cons, Event.asAnswer, if_pos hrsp, List.filterMap_nil,
        List.length_singleton]
    · intro hwrite
      rw [hcb, List.filterMap_append, ha, hanswer.command (hcmd hwrite)]
      rfl
    · rw [hcb]
      exact fun hnone => absurd hnone (Option.some_ne_none c')
    · rw [hcb, List.mem_append, not_or]
      exact ⟨ho, ho'⟩
    · rw [hcb]
      intro d hd
      rw [← Option.some.inj hd]
      exact h.written hwritten

/-- Any PDU that fits is handled as it should be, and leaves the connection
    ready. -/
theorem handleNotify_spec (h : Ready c) (hsec : 0 ≤ i.security) (hfits : Fits c i) :
    Answered c i ∧ ∀ c', (handleNotify c i).2 = some c' → Ready c' := by
  by_cases hop : i.opcode = .writeReq ∨ i.opcode = .writeCmd
  · exact handleNotify_write h hsec hfits hop
  · rcases handleNotify_other h hfits hop with ⟨events, c', hplain, hready, heq⟩
    refine ⟨answered_of_plain heq hplain hop, fun d hd => ?_⟩
    rw [heq] at hd
    rw [← Option.some.inj hd]
    exact hready

/-- A write to the WRITE_DATA value fits as long as its number does not wrap. -/
theorem fits_writeData (h : Ready c) (hop : i.opcode = .writeReq ∨ i.opcode = .writeCmd)
    (hdata : getLe16 i.pdu = 18) {a : Attribute} (hget : gattDbGetAttribute c.db 18 = some a)
    (hid : a.writes.id.toNat + 1 < 2 ^ 32) : Fits c i := by
  rcases mem_of_gattDbGetAttribute hget with ⟨ha, hhandle⟩
  have hreads : readsOf c i = [] := by
    unfold readsOf
    rcases hop with hop | hop
    · rw [hop]
    · rw [hop]
  refine ⟨fun b _ _ => ?_, fun _ b hb hbh _ => ?_, fun hprep => ?_⟩
  · rw [hreads]
    exact b.reads.id.isLt
  · rw [hdata] at hbh
    rw [eq_of_handle_eq h.layout hb ha (hbh.trans hhandle.symm)]
    exact hid
  · -- A Prepare Write is neither of the two.
    rw [hprep.1] at hop
    exact absurd hop (by decide)

end Step

/-- The environment of the sample PDUs. -/
def Env.sample : Env :=
  ⟨⟨0, fun _ => 0, 0, 0⟩, ⟨List.replicate 14 0, rfl⟩, fun _ _ => 0, 1⟩

/-- A Write Command with the byte zero, which `clock_command` ignores. -/
def Exchange.ignored : Exchange :=
  { Env.sample with opcode := .writeCmd, pdu := [18, 0, 0x00], size := by decide }

/-- A Write Request with a time request. -/
def Exchange.timeRequest : Exchange :=
  { Env.sample with opcode := .writeReq, pdu := [18, 0, 0x02], size := by decide }

/-- Exactly-once dispatch. On a new connection, in every run of PDUs whose
    steps all fit, each command that a Write Request or a Write Command
    carries is dispatched once, in order and with its value, and no other, up
    to a process exit; the notifications are whole, the writes are answered,
    and nothing is pending between two PDUs. -/
theorem exactlyOnce (globals : Globals) (mtu : ℕ) (c : Connection) (is : List Exchange)
    (hconnect : connect globals mtu = some c) (hsec : ∀ i ∈ is, 0 ≤ i.security)
    (hfits : gattMachine.Steps Fits c is) : ExactlyOnce c is := by
  have hready := ready_connect hconnect
  have hsteps := hfits.and_inputs hsec
  have hstep : ∀ d i d', Ready d → (Fits d i ∧ 0 ≤ i.security) →
      (gattMachine.step d i).2 = some d' → Ready d' := fun d i d' hd hi hnext =>
    (handleNotify_spec hd hi.2 hi.1).2 d' hnext
  -- `Ready` is the invariant of the run, and each PDU is handled from it.
  refine ⟨run_filterMap Ready _ (fun d i hd hi => ?_) hstep hsteps hready, ?_, ?_⟩
  · rw [hready.handle, ← hd.handle]
    exact (handleNotify_spec hd hi.2 hi.1).1.commands
  · intro before i after m heq hreach
    rw [heq] at hsteps
    rcases reaches_invariant_steps Ready _ hstep hsteps hready hreach with ⟨hm, hrest⟩
    exact (handleNotify_spec hm hrest.1.2 hrest.1.1).1
  · intro before after m heq hreach
    rw [heq] at hsteps
    have hm := (reaches_invariant_steps Ready _ hstep hsteps hready hreach).1
    exact ⟨hm.noRead, hm.noWrite, hm.idle⟩

/-- A new connection answers a time request. -/
theorem exactlyOnce_timeRequest :
    ∃ c, connect (Globals.init 0) 0 = some c ∧ ExactlyOnce c [.timeRequest] := by
  rcases connect_sample with ⟨c, hconnect, hempty⟩
  have hready := ready_connect hconnect
  rcases gattDbGetAttribute_writeData hready.layout with ⟨a, hget, _⟩
  have hid : a.writes.id.toNat + 1 < 2 ^ 32 := by
    rw [hempty a (mem_of_gattDbGetAttribute hget).1]
    decide
  refine ⟨c, hconnect, exactlyOnce (Globals.init 0) 0 c [.timeRequest] hconnect ?_ ?_⟩
  · intro i hi
    rw [List.mem_singleton.mp hi]
    decide
  · exact ⟨fits_writeData hready (Or.inl rfl) (by decide) hget hid, fun _ _ => trivial⟩

section Wrap

variable {c : Connection} {a : Attribute}

/-- The ignored command is dispatched, and then answered under its number. -/
theorem handleNotify_ignored (h : Ready c) (hget : gattDbGetAttribute c.db 18 = some a) :
    handleNotify c .ignored = ([.command [0x00]], some { c with
      db := c.db.setAttribute { a with writes := (a.writes.push.result a.writes.push.id).1 }
      pendingWriteOp := if (a.writes.push.result a.writes.push.id).2 then none
        else some btAttOpWriteCmd }) := by
  rcases gattDbGetAttribute_writeData h.layout with ⟨d, hd, hperm⟩
  have had : d = a := Option.some.inj (hd.symm.trans hget)
  rcases mem_of_gattDbGetAttribute hget with ⟨ha, hhandle⟩
  have hf : a.writeFunc = some .clockWriteDataWriteCb := (writeData_iff h.layout ha).mpr hhandle
  have hcheck : checkPermissions Env.sample c a writeMask = 0 :=
    checkPermissions_writeData (by decide) (had ▸ hperm)
  have hother : ∀ g, clockCommand Env.sample.stack Env.sample.clock g [0x00] = ([], some g) :=
    fun g => clockCommand_other (by decide) (by decide) (by decide) (by decide)
  have hcall : ∀ e : Connection, WriteFunc.clockWriteDataWriteCb.call Env.sample e 0 (some [0x00])
      = ([.command [0x00]], some (e, 0)) := fun e => by
    simp only [WriteFunc.call, clockWriteDataWriteCbWith, hother]
    rfl
  have hbusy : c.pendingWriteOp.isSome = false := by
    rw [h.noWrite]
    rfl
  have hlen : ¬Exchange.ignored.pdu.length < 2 := by decide
  have hle : getLe16 Exchange.ignored.pdu = 18 := by decide
  have hdrop : Exchange.ignored.pdu.drop 2 = [0x00] := rfl
  simp only [handleNotify, Exchange.ignored] at hlen hle hdrop ⊢
  simp only [writeCb, hlen, hle, hdrop, hget, hcheck, ne_eq, not_true_eq_false, if_false, hbusy,
    Bool.false_eq_true, gattDbAttributeWrite, hf, hcall]
  -- Found or not, the counter has moved on.
  rcases a.writes.push.result a.writes.push.id with ⟨writes, found⟩
  cases found with
  | true => rfl
  | false => rfl

/-- Ignored commands count up. -/
theorem reaches_ignored (h : Ready c) (hempty : ∀ b ∈ c.db.attributes, b.writes = .empty) {n : ℕ}
    (hn : n < 2 ^ 32) : ∃ m b, gattMachine.Reaches c (List.replicate n .ignored) m ∧ Ready m ∧
      gattDbGetAttribute m.db 18 = some b ∧ b.writes.id.toNat = n ∧ b.writes.queue = [] := by
  -- Each step counts up by one, and below 2 ^ 32 it fits.
  induction n with
  | zero =>
      rcases gattDbGetAttribute_writeData h.layout with ⟨d, hd, _⟩
      have hd' := hempty d (mem_of_gattDbGetAttribute hd).1
      exact ⟨c, d, reaches_nil_iff.mpr rfl, h, hd, by rw [hd']; rfl, by rw [hd']; rfl⟩
  | succ n ih =>
      rcases ih (by omega) with ⟨m, b, hreach, hm, hget, hid, hq⟩
      have hfits : Fits m .ignored :=
        fits_writeData hm (Or.inr rfl) (by decide) hget (by omega)
      have hstep := handleNotify_ignored hm hget
      rw [push_result hq (by omega)] at hstep
      have hnext := congrArg Prod.snd hstep
      refine ⟨_, { b with writes := ⟨b.writes.id + 1, []⟩ }, ?_,
        (handleNotify_spec hm (by decide) hfits).2 _ hnext, ?_, ?_, rfl⟩
      · rw [List.replicate_succ', reaches_snoc_iff]
        exact ⟨m, hreach, hnext⟩
      · rw [gattDbGetAttribute_setAttribute, hget, Option.map_some, if_pos rfl]
      · rw [BitVec.toNat_add, hid]
        exact Nat.mod_eq_of_lt hn

/-- While a write is pending, a Write Request is refused. -/
theorem handleNotify_pending (hmtu : btAttDefaultLeMtu ≤ c.attMtu)
    (hget : gattDbGetAttribute c.db 18 = some a) (hperm : a.permissions = btAttPermWrite)
    (hbusy : c.pendingWriteOp.isSome) :
    (handleNotify c .timeRequest).1 = [.queued btAttOpErrorRsp [0x12, 18, 0, 0x0E]] := by
  have hcheck : checkPermissions Env.sample c a writeMask = 0 :=
    checkPermissions_writeData (by decide) hperm
  have hlen : ¬Exchange.timeRequest.pdu.length < 2 := by decide
  have hle : getLe16 Exchange.timeRequest.pdu = 18 := by decide
  have hop : ¬btAttOpWriteReq = btAttOpWriteCmd := by decide
  simp only [handleNotify, Exchange.timeRequest] at hlen hle ⊢
  simp only [writeCb, hlen, hle, hget, hcheck, ne_eq, not_true_eq_false, if_false, hbusy, if_true,
    writeError, hop]
  exact errorRsp_eq hmtu btAttOpWriteReq 18 btAttErrorUnlikely

end Wrap

/-- After 2 ^ 32 Write Commands the last one is still pending, so that the Write
    Request that follows is refused and its command not dispatched. -/
theorem exactlyOnce_wrapped : ∃ c m, connect (Globals.init 0) 0 = some c ∧
    gattMachine.Reaches c (List.replicate (2 ^ 32) .ignored) m ∧
    commandOf 18 .timeRequest = some [0x02] ∧
    (handleNotify m .timeRequest).1 = [.queued btAttOpErrorRsp [0x12, 18, 0, 0x0E]] ∧
    ¬ExactlyOnce c (List.replicate (2 ^ 32) .ignored ++ [.timeRequest]) := by
  rcases connect_sample with ⟨c, hconnect, hempty⟩
  have hready := ready_connect hconnect
  rcases reaches_ignored hready hempty (n := 2 ^ 32 - 1) (by omega)
    with ⟨m, b, hreach, hm, hget, hid, _⟩
  -- One more write takes the number zero, under which it cannot be answered.
  have hwrap : b.writes.push.id = 0 := by
    apply BitVec.eq_of_toNat_eq
    rw [Pending.push, BitVec.toNat_add, hid]
    rfl
  have hlost : b.writes.push.result b.writes.push.id = (b.writes.push, false) := if_pos hwrap
  have hstep := congrArg Prod.snd (handleNotify_ignored hm hget)
  rw [hlost] at hstep
  have hsucc : 2 ^ 32 = 2 ^ 32 - 1 + 1 := by omega
  have hlast := reaches_snoc_iff.mpr ⟨m, hreach, hstep⟩
  rw [← List.replicate_succ', ← hsucc] at hlast
  rcases gattDbGetAttribute_writeData hm.layout with ⟨d, hd, hperm⟩
  rw [hd, Option.some.injEq] at hget
  rw [hget] at hd hperm
  refine ⟨_, _, hconnect, hlast, rfl, ?_, fun h => ?_⟩
  · refine handleNotify_pending (a := { b with writes := b.writes.push }) hm.mtu ?_ hperm rfl
    rw [gattDbGetAttribute_setAttribute, hd, Option.map_some, if_pos rfl]
  · have hpending := (h.unblocked _ _ _ rfl hlast).noWrite
    exact absurd hpending (Option.some_ne_none btAttOpWriteCmd)

end Wallclock
