import Wallclock.Theory.Command
import Wallclock.Theory.Procedures

/-!
# What the Writing Handlers Do

The three handlers that write: Write Request and Write Command, Prepare Write
and Execute Write. They are the ones that call the application's write
callbacks, and only a call with a value can reach `clock_command`: a Prepare
Write passes NULL, which every write callback refuses.

That refusal is also why the prepare queue never holds an entry for an
attribute with a callback, so an Execute Write only writes to values the
database stores. `Ready` carries this fact from one request to the next,
together with what the reads need: the layout, and that nothing is pending.

`write_cases` is the one statement about an access. The handlers' lemmas are
case analyses over it.

## Main definitions

* `Stored`: A handle whose attribute has no write callback.
* `Connection.Live`: No entry of the prepare queue has been freed.
* `Prepared`: An entry for such a handle that has not been freed.
* `Ready`: What holds of the connection between two PDUs.
* `WriteFunc.commandCall`: The call of `clock_command` a write callback makes.
* `dispatch`: What a call of `clock_command` makes visible.
* `Written`: What an access through a write callback changes.
* `writeCommand`: The command that the PDU of a write carries.
* `Answers`: The answer to a write.
* `WritesTo`: The attribute that a write is for.

## Theorems

* `Ready.quiet`: A quiet handler leaves the connection ready.
* `Ready.prepare`: So does a change to the prepare queue.
* `Ready.live`: No entry of the prepare queue has been freed.
* `btGattServerSendNotification_eq`: A reply fits in a notification.
* `call_events`, `call_exit`, `cccWrite_handle`, `call_next`: The write
  callbacks.
* `write_cases`: An access that does not wrap.
* `Written.refl`, `Ready.written`: What an access leaves ready.
* `errorRsp_eq`: An error response is sent.
* `checkPermissions_open`: An access that needs no security.
* `checkPermissions_writeData`: The command value may be written.
* `writeError_answers`, `writeCompleteCb_answers`: The ends of a write.
* `commandCall_eq`: The command that a write to an attribute carries.
* `writeCb_refused`, `writeCb_eq`, `writeCb_spec`: A Write Request or a Write
  Command.
* `stored_iff`, `commandCall_null`: Writes that reach no command.
* `appendPrepData_fits`, `storePrepData_spec`, `removeAllPrepData_eq`,
  `Ready.removeAll`: The prepare queue.
* `prepWriteCb_spec`: A Prepare Write Request.
* `execError_spec`, `execNextPrepWrite_spec`, `execWriteCb_spec`: An Execute Write
  Request.
-/

namespace Wallclock

open ByteCodec GattDb

/-- The attribute with the given handle, if there is one, has no write
    callback. -/
def Stored (handle : ℕ) : Prop :=
  ∀ a, gattDbGetAttribute layout handle = some a → a.writeFunc = none

/-- No entry of the prepare queue points to a freed block. -/
def Connection.Live (c : Connection) : Prop := ∀ p ∈ c.prepQueue, p.freed = false

/-- The value is for an attribute without a write callback, and its block has not
    been freed. -/
structure Prepared (p : PrepWriteData) : Prop where
  stored : Stored p.handle
  live : p.freed = false

/-- What holds of the connection between two PDUs: nothing is pending, the
    database has its layout, and only stored values have been prepared. -/
structure Ready (c : Connection) : Prop where
  layout : c.db.mapAttributes .blank = layout
  idle : c.db.Idle
  mtu : btAttDefaultLeMtu ≤ c.attMtu
  noRead : c.pendingReadOp = none
  noWrite : c.pendingWriteOp = none
  prepared : ∀ p ∈ c.prepQueue, Prepared p
  handle : c.server.clockWriteDataHandle = 18

theorem Ready.quiet {c : Connection} (h : Ready c) {r : List Event × Connection} (hq : Quiet c r) :
    Ready r.2 := by
  rcases hq.next with ⟨db, hidle, hsame, hr⟩
  rw [hr]
  exact ⟨(blank_of_unread hsame).trans h.layout, hidle, h.mtu, h.noRead, h.noWrite, h.prepared,
    h.handle⟩

/-- The prepare queue may become any other queue of stored values. -/
theorem Ready.prepare {c : Connection} (h : Ready c) {queue : List PrepWriteData}
    (hqueue : ∀ p ∈ queue, Prepared p) : Ready { c with prepQueue := queue } :=
  ⟨h.layout, h.idle, h.mtu, h.noRead, h.noWrite, hqueue, h.handle⟩

theorem Ready.live {c : Connection} (h : Ready c) : c.Live :=
  fun p hp => (h.prepared p hp).live

/-- The call of `clock_command` that a write callback makes, if it makes one. -/
def WriteFunc.commandCall (offset : ℕ) (value : Option (List UInt8)) :
    WriteFunc → Option (List UInt8)
  | .clockWriteDataWriteCb =>
    if offset = 0 then value.filter fun cmd => 1 ≤ cmd.length ∧ cmd.length ≤ 100 else none
  | _ => none

/-- What a call of `clock_command` makes visible: the call, and its replies as
    notifications of the data value. -/
def dispatch (env : Env) (c : Connection) (cmd : List UInt8) : List Event :=
  .command cmd :: (clockCommand env.stack env.clock c.globals cmd).1.map fun reply =>
    .queued btAttOpHandleValNot (leBytes 2 c.server.clockReadDataHandle ++ reply)

section Callbacks

variable {env : Env} {c : Connection} {offset : ℕ} {value : Option (List UInt8)}

/-- A reply fits in a notification, whatever the transmission unit. -/
theorem btGattServerSendNotification_eq (hmtu : btAttDefaultLeMtu ≤ c.attMtu) {n : Notification}
    (hlen : n.value.length = sizeofMsgU64 ∨ n.value.length = sizeofMsgU8) :
    btGattServerSendNotification c n =
      [.queued btAttOpHandleValNot (leBytes 2 n.handle ++ n.value)] := by
  have hle : n.value.length ≤ 9 := by
    rcases hlen with hlen | hlen
    · exact le_of_eq hlen
    · rw [hlen]
      decide
  have hmtu' : 23 ≤ c.attMtu := hmtu
  simp only [btGattServerSendNotification, btAttSend]
  rw [Nat.min_eq_right (by omega), Nat.add_sub_cancel, List.take_length, if_neg]
  rw [List.length_append, length_leBytes]
  omega

theorem call_events (hmtu : btAttDefaultLeMtu ≤ c.attMtu) (f : WriteFunc) :
    (f.call env c offset value).1
      = (f.commandCall offset value).toList.flatMap (dispatch env c) := by
  cases f with
  | gattSvcChngdCccWriteCb => rfl
  | clockReadDataCccWriteCb => rfl
  | clockWriteDataWriteCb =>
      simp only [WriteFunc.call, WriteFunc.commandCall, clockWriteDataWriteCbWith]
      rcases value with _ | cmd
      · simp only [Option.filter_none, ite_self, Option.toList_none, List.flatMap_nil]
      by_cases hlen : cmd.length = 0 ∨ cmd.length > 100
      · have hfilter : ¬(1 ≤ cmd.length ∧ cmd.length ≤ 100) := by omega
        simp only [if_pos hlen, Option.filter_some, hfilter, decide_false, Bool.false_eq_true,
          if_false, ite_self, Option.toList_none, List.flatMap_nil]
      by_cases hoff : offset = 0
      · -- Each reply is short enough for one notification.
        have hfilter : 1 ≤ cmd.length ∧ cmd.length ≤ 100 := by omega
        simp only [if_neg hlen, hoff, ne_eq, not_true_eq_false, if_false, if_true,
          Option.filter_some, hfilter, and_self, decide_true, Option.toList_some,
          List.flatMap_singleton]
        rw [dispatch, List.cons.injEq, List.map_eq_flatMap]
        refine ⟨rfl, List.flatMap_congr fun reply hreply => ?_⟩
        exact btGattServerSendNotification_eq hmtu (length_clockCommand hreply)
      · simp only [if_neg hlen, hoff, ne_eq, not_false_eq_true, if_true, if_false,
          Option.toList_none, List.flatMap_nil]

/-- A write callback that does not return has called `clock_command`, and the
    process has ended there. -/
theorem call_exit {f : WriteFunc} (h : (f.call env c offset value).2 = none) :
    ∃ cmd, f.commandCall offset value = some cmd ∧
      (clockCommand env.stack env.clock c.globals cmd).2 = none := by
  cases f with
  | gattSvcChngdCccWriteCb => exact absurd h (Option.some_ne_none _)
  | clockReadDataCccWriteCb => exact absurd h (Option.some_ne_none _)
  | clockWriteDataWriteCb =>
      simp only [WriteFunc.call, clockWriteDataWriteCbWith, Option.map_eq_none_iff] at h
      rcases value with _ | cmd
      · exact absurd h (Option.some_ne_none _)
      simp only at h
      split_ifs at h with hlen hoff
      · refine ⟨cmd, ?_, Option.map_eq_none_iff.mp h⟩
        have hfilter : 1 ≤ cmd.length ∧ cmd.length ≤ 100 := by omega
        rw [ne_eq, not_not] at hoff
        simp only [WriteFunc.commandCall, hoff, if_true, Option.filter_some, hfilter, and_self,
          decide_true]

theorem cccWrite_handle {on : UInt8} {set : Bool → Server → Server}
    (hset : ∀ b server, (set b server).clockWriteDataHandle = server.clockWriteDataHandle)
    (server : Server) :
    (cccWrite on set server offset value).1.clockWriteDataHandle
      = server.clockWriteDataHandle := by
  unfold cccWrite
  rcases value with _ | value
  · rfl
  · simp only
    split_ifs
    · rfl
    · rfl
    · exact hset false server
    · exact hset true server
    · rfl

/-- A write callback that returns has changed the server structure and the
    globals at most, and has refused a NULL value. -/
theorem call_next {f : WriteFunc} {c' : Connection} {err : ℕ}
    (h : (f.call env c offset value).2 = some (c', err)) :
    c' = { c with server := c'.server, globals := c'.globals } ∧
      c'.server.clockWriteDataHandle = c.server.clockWriteDataHandle ∧
      (value = none → err ≠ 0) := by
  have hlen : btAttErrorInvalidAttributeValueLen ≠ 0 := by decide
  cases f with
  | gattSvcChngdCccWriteCb =>
      simp only [WriteFunc.call, Option.some.injEq, Prod.mk.injEq] at h
      rw [← h.1, ← h.2]
      refine ⟨rfl, ?_, fun hnull => ?_⟩
      · unfold gattSvcChngdCccWriteCb
        exact cccWrite_handle (by exact fun _ _ => rfl) c.server
      · rw [hnull]
        exact hlen
  | clockReadDataCccWriteCb =>
      simp only [WriteFunc.call, Option.some.injEq, Prod.mk.injEq] at h
      rw [← h.1, ← h.2]
      refine ⟨rfl, ?_, fun hnull => ?_⟩
      · unfold clockReadDataCccWriteCb
        exact cccWrite_handle (by exact fun _ _ => rfl) c.server
      · rw [hnull]
        exact hlen
  | clockWriteDataWriteCb =>
      simp only [WriteFunc.call, Option.map_eq_some_iff, Prod.mk.injEq] at h
      rcases h with ⟨⟨globals, ecode⟩, hnext, hc, herr⟩
      rw [← hc, ← herr]
      refine ⟨rfl, rfl, fun hnull => ?_⟩
      rw [hnull] at hnext
      simp only [clockWriteDataWriteCbWith, Option.some.injEq, Prod.mk.injEq] at hnext
      rw [← hnext.2]
      exact hlen

end Callbacks

/-- What an access changes: the database, and the state of the application. -/
structure Written (c c' : Connection) : Prop where
  eq : c' = { c with db := c'.db, server := c'.server, globals := c'.globals }
  layout : c'.db.mapAttributes .blank = Wallclock.layout
  idle : c'.db.Idle
  handle : c'.server.clockWriteDataHandle = c.server.clockWriteDataHandle

/-- The call of `clock_command` that a write to an attribute makes. -/
def Attribute.commandCall (a : Attribute) (offset : ℕ) (value : Option (List UInt8)) :
    Option (List UInt8) :=
  a.writeFunc.bind (·.commandCall offset value)

/-- A write that does not wrap either ends the process in `clock_command` or is
    completed. What it makes visible is the call of `clock_command`. -/
theorem write_cases (env : Env) {c : Connection} {a : Attribute} (offset : ℕ)
    (value : Option (List UInt8)) (hmtu : btAttDefaultLeMtu ≤ c.attMtu)
    (hlayout : c.db.mapAttributes .blank = layout) (hidle : c.db.Idle) (ha : a ∈ c.db.attributes)
    (hfits : a.WriteFits) :
    (∃ cmd, a.commandCall offset value = some cmd ∧
        (clockCommand env.stack env.clock c.globals cmd).2 = none ∧
        gattDbAttributeWrite env c a offset value = (dispatch env c cmd, none)) ∨
      ∃ c' err, Written c c' ∧ (value = none → a.writeFunc.isSome → err ≠ 0) ∧
        gattDbAttributeWrite env c a offset value =
          ((a.commandCall offset value).toList.flatMap (dispatch env c), some (c', some err)) := by
  rcases hf : a.writeFunc with _ | f
  · -- The database stores the value.
    let stored := a.store (env.heap c.prepQueue.length) offset (value.getD [])
    have hreads : stored.reads.queue = [] := by
      rw [show stored.reads = a.reads from a.reads_store _ _ _]
      exact (hidle a ha).1
    have hwrites : stored.writes.queue = [] := by
      rw [show stored.writes = a.writes from a.writes_store _ _ _]
      exact (hidle a ha).2
    have hwritten : Written c { c with db := c.db.setAttribute stored } :=
      ⟨rfl, blank_setAttribute hlayout ha (a.blank_store _ _ _), hidle.setAttribute hreads hwrites,
        rfl⟩
    refine Or.inr ⟨_, 0, hwritten, fun _ h => ?_, ?_⟩
    · exact absurd h (by simp only [Option.isSome_none, Bool.false_eq_true, not_false_eq_true])
    · rw [write_stored hf, Attribute.commandCall, hf]
      rfl
  · -- The callback decides, and its result completes the operation.
    have hcall : a.commandCall offset value = f.commandCall offset value := by
      rw [Attribute.commandCall, hf]
      rfl
    rw [write_completes hf (hidle a ha).2 hfits, call_events hmtu, hcall]
    rcases hnext : (f.call env c offset value).2 with _ | ⟨c', err⟩
    · rcases call_exit hnext with ⟨cmd, hcmd, hexit⟩
      refine Or.inl ⟨cmd, hcmd, hexit, ?_⟩
      rw [hcmd, Option.toList_some, List.flatMap_singleton, Option.map_none]
    · rcases call_next hnext with ⟨heq, hhandle, hnull⟩
      let db := c'.db.setAttribute { a with writes := ⟨a.writes.id + 1, []⟩ }
      have hdb : db = c.db.setAttribute { a with writes := ⟨a.writes.id + 1, []⟩ } := by
        have hkept : c'.db = c.db := by rw [heq]
        simp only [db, hkept]
      have hwritten : Written c { c' with db } := by
        refine ⟨congrArg (fun d : Connection => { d with db }) heq, ?_, ?_, hhandle⟩
        · rw [hdb]
          exact blank_setAttribute hlayout ha rfl
        · rw [hdb]
          exact hidle.setAttribute (hidle a ha).1 rfl
      exact Or.inr ⟨_, err, hwritten, fun h _ => hnull h, rfl⟩

/-- The command that the PDU of a write to the given handle carries. -/
def writeCommand (handle : ℕ) (pdu : List UInt8) : Option (List UInt8) :=
  let value := pdu.drop 2
  if 2 ≤ pdu.length ∧ getLe16 pdu = handle ∧ 1 ≤ value.length ∧ value.length ≤ 100 then some value
  else none

/-- A command is not answered; a request is answered by one Write Response or
    Error Response. -/
structure Answers (opcode : ℕ) (answer : List Event) : Prop where
  command : opcode = btAttOpWriteCmd → answer = []
  request : opcode ≠ btAttOpWriteCmd → ∃ rsp pdu, answer = [.queued rsp pdu] ∧
    (rsp = btAttOpWriteRsp ∨ rsp = btAttOpErrorRsp)

section WriteRequest

variable {env : Env} {c : Connection}

theorem Written.refl (h : Ready c) : Written c c :=
  ⟨rfl, h.layout, h.idle, rfl⟩

theorem Ready.written (h : Ready c) {c' : Connection} (hw : Written c c') : Ready c' := by
  have heq := hw.eq
  refine ⟨hw.layout, hw.idle, ?_, ?_, ?_, ?_, hw.handle.trans h.handle⟩
  · rw [heq]
    exact h.mtu
  · rw [heq]
    exact h.noRead
  · rw [heq]
    exact h.noWrite
  · rw [heq]
    exact h.prepared

theorem errorRsp_eq (hmtu : btAttDefaultLeMtu ≤ c.attMtu) (opcode handle err : ℕ) :
    btAttSendErrorRsp c opcode handle err = [.queued btAttOpErrorRsp
      (leBytes 1 opcode ++ leBytes 2 handle ++ leBytes 1 (attEcodeFromError err))] := by
  have hmtu' : 23 ≤ c.attMtu := hmtu
  unfold btAttSendErrorRsp btAttSend
  rw [if_neg]
  simp only [List.length_append, length_leBytes]
  omega

/-- An access is permitted if the permissions allow it and ask for no security. -/
theorem checkPermissions_open (hsec : 0 ≤ env.security) {a : Attribute} {perm mask : ℕ}
    (hperm : a.permissions = perm) (hread : mask &&& btAttPermRead ≠ 0 → perm &&& btAttPermRead ≠ 0)
    (hwrite : mask &&& btAttPermWrite ≠ 0 → perm &&& btAttPermWrite ≠ 0)
    (hopen : perm &&& mask &&& btAttPermSecure = 0 ∧ perm &&& mask &&& btAttPermAuthen = 0 ∧
      perm &&& mask &&& btAttPermEncrypt = 0) : checkPermissions env c a mask = 0 := by
  have hread' : ¬(perm ≠ 0 ∧ mask &&& btAttPermRead ≠ 0 ∧ perm &&& btAttPermRead = 0) :=
    fun h => hread h.2.1 h.2.2
  have hwrite' : ¬(perm ≠ 0 ∧ mask &&& btAttPermWrite ≠ 0 ∧ perm &&& btAttPermWrite = 0) :=
    fun h => hwrite h.2.1 h.2.2
  simp only [checkPermissions, hperm, if_neg hread', if_neg hwrite', hopen.1, hopen.2.1,
    hopen.2.2, ne_eq, not_true_eq_false, false_and, if_false, ite_self, Int.not_lt.mpr hsec]

/-- The command value may be written. -/
theorem checkPermissions_writeData (hsec : 0 ≤ env.security) {a : Attribute}
    (hperm : a.permissions = btAttPermWrite) : checkPermissions env c a writeMask = 0 :=
  checkPermissions_open hsec hperm (by decide) (by decide) (by decide)

theorem writeError_answers (hmtu : btAttDefaultLeMtu ≤ c.attMtu) (opcode handle ecode : ℕ) :
    Answers opcode (writeError c opcode handle ecode).1 := by
  unfold writeError
  refine ⟨fun h => if_pos h, fun h => ?_⟩
  rw [if_neg h]
  exact ⟨_, _, errorRsp_eq hmtu opcode handle ecode, Or.inr rfl⟩

theorem writeCompleteCb_answers (hmtu : btAttDefaultLeMtu ≤ c.attMtu) (opcode handle err : ℕ) :
    Answers opcode (writeCompleteCb c opcode handle err).1 := by
  unfold writeCompleteCb
  refine ⟨fun h => if_pos h, fun h => ?_⟩
  rw [if_neg h]
  split_ifs
  · exact ⟨_, _, errorRsp_eq hmtu opcode handle err, Or.inr rfl⟩
  · have hmtu' : 23 ≤ c.attMtu := hmtu
    refine ⟨btAttOpWriteRsp, [], if_neg ?_, Or.inl rfl⟩
    rw [List.length_nil]
    omega

/-- A write to an attribute calls `clock_command` exactly if its PDU carries a
    command. -/
theorem commandCall_eq (hlayout : c.db.mapAttributes .blank = layout) {a : Attribute}
    (ha : a ∈ c.db.attributes) {pdu : List UInt8} (hlen : 2 ≤ pdu.length)
    (hhandle : a.handle = getLe16 pdu) :
    a.commandCall 0 (some (pdu.drop 2)) = writeCommand 18 pdu := by
  unfold Attribute.commandCall writeCommand
  by_cases hdata : a.writeFunc = some .clockWriteDataWriteCb
  · have h18 : getLe16 pdu = 18 := hhandle.symm.trans ((writeData_iff hlayout ha).mp hdata)
    simp only [hdata, Option.bind_some, WriteFunc.commandCall, if_true, Option.filter_some,
      decide_eq_true_eq, hlen, h18, true_and]
  · have h18 : ¬getLe16 pdu = 18 := fun h =>
      hdata ((writeData_iff hlayout ha).mpr (hhandle.trans h))
    simp only [h18, false_and, and_false, if_false]
    rcases hf : a.writeFunc with _ | f
    · rfl
    · cases f with
      | gattSvcChngdCccWriteCb => rfl
      | clockReadDataCccWriteCb => rfl
      | clockWriteDataWriteCb => exact absurd hf hdata

/-- The PDU of a write passes the checks of `write_cb`, which find this
    attribute. -/
structure WritesTo (env : Env) (c : Connection) (pdu : List UInt8) (a : Attribute) : Prop where
  length : 2 ≤ pdu.length
  get : gattDbGetAttribute c.db (getLe16 pdu) = some a
  check : checkPermissions env c a writeMask = 0
  idle : c.pendingWriteOp = none

/-- Any other PDU leaves the connection alone. -/
theorem writeCb_refused {pdu : List UInt8} (h : ¬∃ a, WritesTo env c pdu a) (opcode : ℕ) :
    ∃ handle ecode, writeCb env c opcode pdu = writeError c opcode handle ecode := by
  by_cases hlen : pdu.length < 2
  · exact ⟨0, btAttErrorInvalidPdu, if_pos hlen⟩
  rcases hget : gattDbGetAttribute c.db (getLe16 pdu) with _ | a
  · refine ⟨getLe16 pdu, btAttErrorInvalidHandle, ?_⟩
    simp only [writeCb, if_neg hlen, hget]
  by_cases hcheck : checkPermissions env c a writeMask = 0
  · have hbusy : c.pendingWriteOp.isSome := by
      rw [Option.isSome_iff_ne_none]
      exact fun hidle => h ⟨a, Nat.not_lt.mp hlen, hget, hcheck, hidle⟩
    refine ⟨getLe16 pdu, btAttErrorUnlikely, ?_⟩
    simp only [writeCb, if_neg hlen, hget, hcheck, ne_eq, not_true_eq_false, if_false, hbusy,
      if_true]
  · refine ⟨getLe16 pdu, checkPermissions env c a writeMask, ?_⟩
    simp only [writeCb, if_neg hlen, hget, ne_eq, hcheck, not_false_eq_true, if_true]

/-- The write itself. -/
theorem writeCb_eq {pdu : List UInt8} {a : Attribute} (h : WritesTo env c pdu a) (opcode : ℕ) :
    writeCb env c opcode pdu =
      match gattDbAttributeWrite env { c with pendingWriteOp := some opcode } a 0
          (some (pdu.drop 2)) with
      | (events, none) => (events, none)
      | (events, some (c, none)) => (events, some c)
      | (events, some (c, some err)) => (events ++ (writeCompleteCb c opcode a.handle err).1,
          some (writeCompleteCb c opcode a.handle err).2) := by
  have hbusy : ¬c.pendingWriteOp.isSome = true := by
    rw [h.idle]
    exact Bool.false_ne_true
  refine (if_neg (Nat.not_lt.mpr h.length)).trans ?_
  dsimp only
  rw [h.get]
  exact (if_neg (not_not_intro h.check)).trans (if_neg hbusy)

/-- A Write Request or a Write Command calls `clock_command` exactly if its PDU
    carries a command, and is answered unless the process exits there. -/
theorem writeCb_spec (h : Ready c) (hsec : 0 ≤ env.security) (opcode : ℕ) {pdu : List UInt8}
    (hfits : 2 ≤ pdu.length → ∀ a ∈ c.db.attributes, a.handle = getLe16 pdu → a.WriteFits) :
    (∃ cmd, writeCommand 18 pdu = some cmd ∧
        (clockCommand env.stack env.clock c.globals cmd).2 = none ∧
        writeCb env c opcode pdu = (dispatch env c cmd, none)) ∨
      ∃ answer c', Answers opcode answer ∧ Written c c' ∧ writeCb env c opcode pdu =
        ((writeCommand 18 pdu).toList.flatMap (dispatch env c) ++ answer, some c') := by
  by_cases hto : ∃ a, WritesTo env c pdu a
  · rcases hto with ⟨a, hto⟩
    rcases mem_of_gattDbGetAttribute hto.get with ⟨ha, hhandle⟩
    rw [writeCb_eq hto]
    rcases write_cases env (c := { c with pendingWriteOp := some opcode }) 0
      (some (pdu.drop 2)) h.mtu h.layout h.idle ha (hfits hto.length a ha hhandle)
      with ⟨cmd, hcmd, hexit, hwrite⟩ | ⟨c', err, hwritten, _, hwrite⟩
    · rw [commandCall_eq h.layout ha hto.length hhandle] at hcmd
      rw [hwrite]
      exact Or.inl ⟨cmd, hcmd, hexit, rfl⟩
    · rw [commandCall_eq h.layout ha hto.length hhandle] at hwrite
      rw [hwrite]
      have hmtu : btAttDefaultLeMtu ≤ c'.attMtu := by
        rw [hwritten.eq]
        exact h.mtu
      refine Or.inr ⟨_, (writeCompleteCb c' opcode a.handle err).2,
        writeCompleteCb_answers hmtu opcode a.handle err, ?_, rfl⟩
      refine ⟨?_, hwritten.layout, hwritten.idle, hwritten.handle⟩
      have heq := congrArg (fun d : Connection => { d with pendingWriteOp := none }) hwritten.eq
      simp only [writeCompleteCb] at heq ⊢
      rw [heq, h.noWrite]
  · -- The checks refuse no PDU that carries a command.
    have hnone : writeCommand 18 pdu = none := by
      refine if_neg ?_
      rintro ⟨hlen, h18, _⟩
      rcases gattDbGetAttribute_writeData h.layout with ⟨d, hd, hperm⟩
      rw [← h18] at hd
      exact hto ⟨d, hlen, hd, checkPermissions_writeData hsec hperm, h.noWrite⟩
    rcases writeCb_refused hto opcode with ⟨handle, ecode, heq⟩
    refine Or.inr ⟨_, c, writeError_answers h.mtu opcode handle ecode, .refl h, ?_⟩
    rw [heq, hnone]
    rfl

end WriteRequest

section Prepared

variable {env : Env} {c : Connection}

theorem stored_iff (hlayout : c.db.mapAttributes .blank = layout) {handle : ℕ} {a : Attribute}
    (hget : gattDbGetAttribute c.db handle = some a) : Stored handle ↔ a.writeFunc = none := by
  have hblank : gattDbGetAttribute layout handle = some a.blank := by
    rw [← gattDbGetAttribute_layout hlayout, hget, Option.map_some]
  constructor
  · exact fun h => h a.blank hblank
  · intro hf b hb
    rw [hblank, Option.some.injEq] at hb
    rw [← hb]
    exact hf

/-- A NULL value reaches no command. -/
theorem commandCall_null (a : Attribute) (offset : ℕ) : a.commandCall offset none = none := by
  unfold Attribute.commandCall
  rcases a.writeFunc with _ | f
  · rfl
  · cases f with
    | gattSvcChngdCccWriteCb => rfl
    | clockReadDataCccWriteCb => rfl
    | clockWriteDataWriteCb => exact ite_self none

/-- Bytes that fit the length are appended. -/
theorem appendPrepData_fits (p : PrepWriteData) (value : List UInt8) (hlive : p.freed = false)
    (h : p.value.length + value.length < 2 ^ 16) :
    ∃ p', appendPrepData p value = some (p', true) ∧ p'.handle = p.handle ∧ p'.freed = false := by
  unfold appendPrepData
  simp only [hlive, Bool.false_eq_true, if_false, h, if_true]
  split_ifs
  · exact ⟨p, rfl, rfl, hlive⟩
  · exact ⟨_, rfl, rfl, rfl⟩

/-- A prepared value is stored, unless it makes an earlier one too long. It has
    an entry of its own or continues one for the same handle. -/
theorem storePrepData_spec (hlive : c.Live) {handle : ℕ} (offset : ℕ) (value : List UInt8)
    (hvalue : value.length < 2 ^ 16)
    (hfits : ∀ p, c.prepQueue.getLast? = some p → p.handle = handle →
      offset = p.value.length + p.offset → p.value.length + value.length < 2 ^ 16) :
    ∃ queue, storePrepData c handle offset value = some ({ c with prepQueue := queue }, true) ∧
      ∀ p ∈ queue, p.freed = false ∧ (p ∈ c.prepQueue ∨ p.handle = handle) := by
  -- Whatever does not continue the last entry is a new one.
  have hnew : ∃ queue,
      prepDataNew c handle offset value = some ({ c with prepQueue := queue }, true) ∧
      ∀ p ∈ queue, p.freed = false ∧ (p ∈ c.prepQueue ∨ p.handle = handle) := by
    rcases appendPrepData_fits ⟨[], handle, offset,
      isReliableWriteSupported c.db (handle - 1), false⟩ value rfl
      (by rw [List.length_nil]; omega) with ⟨p, happend, hp, hplive⟩
    refine ⟨c.prepQueue ++ [p], ?_, fun q hq => ?_⟩
    · rw [prepDataNew, happend]
      rfl
    · rcases List.mem_append.mp hq with hq | hq
      · exact ⟨hlive q hq, Or.inl hq⟩
      · rw [List.mem_singleton.mp hq]
        exact ⟨hplive, Or.inr hp⟩
  unfold storePrepData
  rcases hlast : c.prepQueue.getLast? with _ | p
  · exact hnew
  simp only
  split_ifs with hcontinues
  · rcases appendPrepData_fits p value (hlive p (List.mem_of_getLast? hlast))
      (hfits p hlast hcontinues.1 hcontinues.2) with ⟨p', happend, hp, hplive⟩
    refine ⟨c.prepQueue.dropLast ++ [p'], ?_, fun q hq => ?_⟩
    · rw [happend]
      rfl
    · rcases List.mem_append.mp hq with hq | hq
      · have hq' := (List.dropLast_sublist _).subset hq
        exact ⟨hlive q hq', Or.inl hq'⟩
      · rw [List.mem_singleton.mp hq]
        exact ⟨hplive, Or.inr (hp.trans hcontinues.1)⟩
  · exact hnew

/-- Blocks that have not been freed can be. -/
theorem removeAllPrepData_eq (hlive : c.Live) (answer : List Event) :
    removeAllPrepData c answer = (answer, some { c with prepQueue := [] }) := by
  have hnone : ¬c.prepQueue.any (·.freed) = true := fun hany => by
    rcases List.any_eq_true.mp hany with ⟨p, hp, hfreed⟩
    rw [hlive p hp] at hfreed
    exact absurd hfreed Bool.false_ne_true
  rw [removeAllPrepData, if_neg hnone]

/-- So they can in the connection that a PDU leaves. -/
theorem Ready.removeAll (h : Ready c) (answer : List Event) :
    removeAllPrepData c answer = (answer, some { c with prepQueue := [] }) ∧
      Ready { c with prepQueue := [] } :=
  ⟨removeAllPrepData_eq h.live answer,
    h.prepare fun _ hp => absurd hp List.not_mem_nil⟩

/-- A Prepare Write Request never reaches a command. -/
theorem prepWriteCb_spec (h : Ready c) (opcode : ℕ) {pdu : List UInt8}
    (hsize : 1 + pdu.length < 2 ^ 16)
    (hfits : 4 ≤ pdu.length → c.prepQueue.length < c.maxPrepQueueLen →
      ∀ a ∈ c.db.attributes, a.handle = getLe16 pdu → a.WriteFits)
    (hprep : 4 ≤ pdu.length → c.prepQueue.length < c.maxPrepQueueLen →
      ∀ p, c.prepQueue.getLast? = some p → p.handle = getLe16 pdu →
        getLe16 (pdu.drop 2) = p.value.length + p.offset →
          p.value.length + (pdu.length - 4) < 2 ^ 16) :
    ∃ answer c', (∀ e ∈ answer, e.Plain) ∧ Ready c' ∧
      prepWriteCb env c opcode pdu = (answer, some c') := by
  unfold prepWriteCb
  split_ifs with hlen hfull
  · exact ⟨_, c, plain_errorRsp, h, rfl⟩
  · exact ⟨_, c, plain_errorRsp, h, rfl⟩
  rw [not_lt] at hlen
  rw [ge_iff_le, not_le] at hfull
  simp only
  rcases hget : gattDbGetAttribute c.db (getLe16 pdu) with _ | a
  · exact ⟨_, c, plain_errorRsp, h, rfl⟩
  rcases mem_of_gattDbGetAttribute hget with ⟨ha, hhandle⟩
  simp only
  split_ifs with hcheck
  · exact ⟨_, c, plain_errorRsp, h, rfl⟩
  rcases write_cases env (getLe16 (pdu.drop 2)) none h.mtu h.layout h.idle ha
    (hfits hlen hfull a ha hhandle) with ⟨cmd, hcmd, _⟩ | ⟨c', err, hwritten, hnull, hwrite⟩
  · rw [commandCall_null] at hcmd
    exact absurd hcmd.symm (Option.some_ne_none cmd)
  rw [hwrite, commandCall_null]
  simp only [Option.toList_none, List.flatMap_nil, List.nil_append]
  have hready := h.written hwritten
  unfold prepWriteCompleteCb
  simp only
  split_ifs with herr
  · exact ⟨_, c', plain_errorRsp, hready, rfl⟩
  -- Only a value without a callback gets here.
  have hstored : Stored (getLe16 pdu) := by
    refine (stored_iff h.layout hget).mpr ?_
    rcases hf : a.writeFunc with _ | f
    · rfl
    · exact absurd (hnull rfl (by rw [hf]; rfl)) (not_not_intro (not_not.mp herr))
  have hqueue : c'.prepQueue = c.prepQueue := by rw [hwritten.eq]
  have hdrop : (pdu.drop 4).length = pdu.length - 4 := List.length_drop
  rcases storePrepData_spec hready.live (getLe16 (pdu.drop 2)) (pdu.drop 4) (by omega)
    (by rw [hqueue, hdrop]; exact hprep hlen hfull) with ⟨queue, hstore, hentries⟩
  have hprepared : ∀ p ∈ queue, Prepared p := by
    intro p hp
    rcases hentries p hp with ⟨hlive, hold | hnew⟩
    · exact hready.prepared p hold
    · exact ⟨hnew ▸ hstored, hlive⟩
  rw [hstore]
  exact ⟨_, _, plain_send (by decide), hready.prepare hprepared, rfl⟩

/-- The error branch of an Execute Write Request. -/
theorem execError_spec (h : Ready c) (ehandle err : ℕ) :
    ∃ answer c', (∀ e ∈ answer, e.Plain) ∧ Ready c' ∧
      execError c ehandle err = (answer, some c') := by
  rcases h.removeAll (btAttSendErrorRsp c btAttOpExecWriteReq ehandle err) with ⟨heq, hempty⟩
  exact ⟨_, _, plain_errorRsp, hempty, heq⟩

/-- The writes of an Execute Write Request reach no callback. -/
theorem execNextPrepWrite_spec (h : Ready c) (ehandle : ℕ) {queue : List PrepWriteData}
    (hqueue : ∀ p ∈ queue, Prepared p) :
    ∃ answer c', (∀ e ∈ answer, e.Plain) ∧ Ready c' ∧
      execNextPrepWrite env c ehandle queue = (answer, some c') := by
  -- Induction on the queue; what is left of it stays stored.
  induction queue generalizing c ehandle with
  | nil => exact ⟨_, _, plain_send (by decide), (h.removeAll []).2, rfl⟩
  | cons p queue ih =>
      have hrest : ∀ q ∈ queue, Prepared q := fun q hq =>
        hqueue q (List.mem_cons_of_mem p hq)
      have hpop : Ready { c with prepQueue := queue } := h.prepare hrest
      have hp := hqueue p List.mem_cons_self
      unfold execNextPrepWrite
      simp only
      rcases hget : gattDbGetAttribute c.db p.handle with _ | a
      · exact execError_spec hpop ehandle btAttErrorUnlikely
      have ha := (mem_of_gattDbGetAttribute hget).1
      have hf : a.writeFunc = none := (stored_iff h.layout hget).mp hp.stored
      have hfits : a.WriteFits := fun hsome => by
        rw [hf] at hsome
        exact absurd hsome (by simp only [Option.isSome_none, Bool.false_eq_true,
          not_false_eq_true])
      have hcall : ∀ value, a.commandCall p.offset value = none := fun value => by
        rw [Attribute.commandCall, hf]
        rfl
      simp only [hp.live, Bool.false_eq_true, if_false]
      generalize (if p.value.length = 0 then none else some p.value) = value
      rcases write_cases env (c := { c with prepQueue := queue }) p.offset value h.mtu h.layout
        h.idle ha hfits
        with ⟨cmd, hcmd, _⟩ | ⟨c', err, hwritten, _, hwrite⟩
      · rw [hcall] at hcmd
        exact absurd hcmd.symm (Option.some_ne_none cmd)
      rw [hwrite, hcall]
      simp only [Option.toList_none, List.flatMap_nil, List.nil_append]
      have hready := hpop.written hwritten
      split_ifs
      · exact execError_spec hready a.handle err
      · exact ih hready a.handle hrest

theorem execWriteCb_spec (h : Ready c) (opcode : ℕ) (pdu : List UInt8) :
    ∃ answer c', (∀ e ∈ answer, e.Plain) ∧ Ready c' ∧
      execWriteCb env c opcode pdu = (answer, some c') := by
  have hempty : Ready { c with prepQueue := [] } := (h.removeAll []).2
  have hremove := fun answer => (h.removeAll answer).1
  unfold execWriteCb
  simp only [hremove]
  split_ifs
  · exact ⟨_, _, plain_errorRsp, hempty, rfl⟩
  · exact ⟨_, _, plain_send (by decide), hempty, rfl⟩
  · split
    · exact ⟨_, _, plain_errorRsp, hempty, rfl⟩
    · exact execNextPrepWrite_spec h 0 h.prepared
  · exact execNextPrepWrite_spec h 0 h.prepared
  · exact ⟨_, _, plain_errorRsp, hempty, rfl⟩

end Prepared

end Wallclock
