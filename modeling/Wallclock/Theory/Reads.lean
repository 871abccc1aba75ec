import Wallclock.Theory.Dispatch
import Wallclock.Theory.Registers

/-!
# Reading a CCC

How the four read procedures report a CCC, whose value a callback returns.

Most attributes have their value in the database, which applies the offset of
a read itself. For an attribute with a read callback only the callback can,
and the two CCC callbacks return both bytes from any offset. So Read Request,
Read By Type and Read Multiple, which read from offset zero, cannot tell a CCC
from two stored bytes, and a Read Blob Request from another offset can: it
gets both bytes again where it should get the rest of them or an error.

`Connection.stored` is the connection with every value stored in the database.
`handleNotify_stored` says that the reads at offset zero are answered alike on
both connections, whatever else they read and whatever was read before. The
answers themselves are then computed on the stored one, where a read leaves no
trace. `ReportsCccs` is what one expects of a PDU, and `reportsCccs_iff` says
which PDUs it holds for, in any state of a connection.

## Main definitions

* `Connection.frozen`, `Connection.stored`: Values stored in the database.
* `Ccc.handle`, `Ccc.readFunc`, `Ccc.value`: A CCC in the database.
* `Connection.valueAt`: The value a read by handle should get.
* `ReadsCcc`, `CccOffset`: Reads, and reads of a CCC from another offset.
* `ReportsCccs`: A PDU is answered as if the CCCs were stored.
* `Exchange.cccBlob`: A Read Blob Request for a CCC.

## Theorems

* `writeCb_ready`, `handleNotify_ready`, `ready_reaches`: The connection stays
  ready.
* `readAt_frozen`, `readValue_frozen`: Reads of a stored value.
* `gattDbGetAttribute_stored`, `frozen_unread`: Lookups of stored values.
* `handleReadReq_events`, `handleReadReq_stored`, `handleReadReq_zero`: Single
  reads.
* `processReadByType_stored`, `gattDbReadByType_mapAttributes`,
  `readByTypeCb_stored`: Read By Type on both connections.
* `readMultipleGo_stored`, `readMultipleCb_stored`: Read Multiple on both.
* `call_ccc`, `gattDbGetAttribute_ccc`, `readAt_ccc`, `readAt_frozen_ccc`: A
  CCC in the database.
* `readValue_eq`, `readValue_ccc`, `checkPermissions_ccc`: Its value and its
  permissions.
* `takeWhile_le`, `services_layout`, `gattDbReadByType_ccc`: The CCCs in a
  range.
* `processReadByType_frozen`, `processReadByType_values`,
  `processReadByType_first`, `readByTypeCb_ccc`: Read By Type for the CCCs.
* `readMultipleGo_values`, `readMultipleCb_values`: Read Multiple.
* `handleReadReq_ccc`, `handleReadReq_stored_ccc`, `value_ne_drop`: Single
  reads of a CCC.
* `readFits_single`: A single read has room for its identifier.
* `handleNotify_stored`, `handleNotify_blob`: The PDUs.
* `reports_iff`, `reportsCccs_iff`: The PDUs that are answered as expected.
* `size_cccBlob`, `fits_cccBlob`, `reportsCccs_cccBlob`: One that is.
* `cccBlob_both_bytes`: One that is not.
-/

namespace Wallclock

open ByteCodec GattDb StepMachine

section Ready

variable {c : Connection} {i : Exchange}

/-- A write leaves the connection ready, whether or not it is permitted. -/
theorem writeCb_ready {env : Env} (h : Ready c) (opcode : ℕ) {pdu : List UInt8}
    (hfits : 2 ≤ pdu.length → ∀ a ∈ c.db.attributes, a.handle = getLe16 pdu → a.WriteFits)
    {c' : Connection} (hnext : (writeCb env c opcode pdu).2 = some c') : Ready c' := by
  by_cases hto : ∃ a, WritesTo env c pdu a
  · rcases hto with ⟨a, hto⟩
    rcases mem_of_gattDbGetAttribute hto.get with ⟨ha, hhandle⟩
    rw [writeCb_eq hto] at hnext
    rcases write_cases env (c := { c with pendingWriteOp := some opcode }) 0 (some (pdu.drop 2))
      h.mtu h.layout h.idle ha (hfits hto.length a ha hhandle)
      with ⟨cmd, _, _, hwrite⟩ | ⟨d, err, hwritten, _, hwrite⟩
    · rw [hwrite] at hnext
      exact absurd hnext.symm (Option.some_ne_none c')
    · rw [hwrite] at hnext
      -- A completed write has changed the globals, the flags and the database only.
      have heq := hwritten.eq
      rw [← Option.some.inj hnext]
      refine ⟨hwritten.layout, hwritten.idle, ?_, ?_, rfl, ?_, hwritten.handle.trans h.handle⟩
      · simp only [writeCompleteCb]
        rw [heq]
        exact h.mtu
      · simp only [writeCompleteCb]
        rw [heq]
        exact h.noRead
      · simp only [writeCompleteCb]
        rw [heq]
        exact h.prepared
  · rcases writeCb_refused hto opcode with ⟨handle, ecode, heq⟩
    rw [heq] at hnext
    exact Option.some.inj hnext ▸ h

/-- Any PDU that fits leaves the connection ready. -/
theorem handleNotify_ready (h : Ready c) (hfits : Fits c i) {c' : Connection}
    (hnext : (handleNotify c i).2 = some c') : Ready c' := by
  by_cases hop : i.opcode = .writeReq ∨ i.opcode = .writeCmd
  · have hwrites := fun hlen a ha hhandle hsome =>
      hfits.writes (Or.inl ⟨hop, hlen⟩) a ha hhandle hsome
    rcases hop with hop | hop
    · simp only [handleNotify, hop] at hnext
      exact writeCb_ready h btAttOpWriteReq hwrites hnext
    · simp only [handleNotify, hop] at hnext
      exact writeCb_ready h btAttOpWriteCmd hwrites hnext
  · rcases handleNotify_other h hfits hop with ⟨events, d, _, hready, heq⟩
    rw [heq] at hnext
    exact Option.some.inj hnext ▸ hready

/-- A connection on which every PDU fits is ready in every state. -/
theorem ready_reaches {globals : Globals} {mtu : ℕ} {is : List Exchange} {m : Connection}
    (hconnect : connect globals mtu = some c) (hfits : gattMachine.Steps Fits c is)
    (hr : gattMachine.Reaches c is m) : Ready m := by
  have hstep : ∀ d i d', Ready d → Fits d i → (gattMachine.step d i).2 = some d' → Ready d' :=
    fun d i d' hd hi hnext => handleNotify_ready hd hi hnext
  rw [← List.append_nil is] at hfits
  exact (reaches_invariant_steps Ready Fits hstep hfits (ready_connect hconnect) hr).1

end Ready

/-- The attribute with the value that a callback would return stored in the
    database instead. -/
def Connection.frozen (c : Connection) (a : Attribute) : Attribute :=
  { a with readFunc := none, value := c.readValue a, reads := .empty }

/-- The connection with every value stored in the database. -/
def Connection.stored (c : Connection) : Connection :=
  { c with db := c.db.mapAttributes c.frozen }

section Stored

variable {env : Env} {c : Connection} {a : Attribute}

/-- A value in the database is read without a trace. -/
theorem readAt_frozen (d : Connection) (offset : ℕ) :
    gattDbAttributeRead d (c.frozen a) offset = (d, some (d.readAt (c.frozen a) offset)) := by
  unfold gattDbAttributeRead Connection.readAt Connection.frozen
  simp only
  split_ifs <;> rfl

theorem readValue_frozen (d : Connection) : d.readValue (c.frozen a) = c.readValue a := rfl

theorem gattDbGetAttribute_stored (c : Connection) (handle : ℕ) :
    gattDbGetAttribute c.stored.db handle = (gattDbGetAttribute c.db handle).map c.frozen :=
  gattDbGetAttribute_mapAttributes (f := c.frozen) (fun _ => rfl) c.db handle

/-- What is read does not depend on how often it was read before. -/
theorem frozen_unread {db : GattDb} (h : db.mapAttributes .unread = c.db.mapAttributes .unread)
    (handle : ℕ) :
    (gattDbGetAttribute db handle).map c.frozen = gattDbGetAttribute c.stored.db handle := by
  have hfrozen : ∀ o : Option Attribute, o.map c.frozen = (o.map Attribute.unread).map c.frozen :=
    fun o => by
      rw [Option.map_map]
      rfl
  rw [gattDbGetAttribute_stored, hfrozen, gattDbGetAttribute_unread h, ← hfrozen]

/-- A single read that does not wrap. -/
theorem handleReadReq_events (hidle : c.db.Idle) (hnone : c.pendingReadOp = none) {handle : ℕ}
    (hget : gattDbGetAttribute c.db handle = some a) (hfits : a.ReadFits) (opcode offset : ℕ) :
    (handleReadReq env c opcode handle offset).1 =
      if checkPermissions env c a readMask ≠ 0 then
        btAttSendErrorRsp c opcode handle (checkPermissions env c a readMask)
      else (readCompleteCb c opcode a.handle (c.readAt a offset).1 (c.readAt a offset).2).1 := by
  have hbusy : c.pendingReadOp.isSome = false := by
    rw [hnone]
    rfl
  have hq := (hidle a (mem_of_gattDbGetAttribute hget).1).1
  simp only [handleReadReq, hget, hbusy, Bool.false_eq_true, if_false,
    read_completes offset hq hfits]
  split_ifs <;> rfl

/-- The same read of the stored value. -/
theorem handleReadReq_stored (hnone : c.pendingReadOp = none) {handle : ℕ}
    (hget : gattDbGetAttribute c.db handle = some a) (opcode offset : ℕ) :
    (handleReadReq env c.stored opcode handle offset).1 =
      if checkPermissions env c a readMask ≠ 0 then
        btAttSendErrorRsp c opcode handle (checkPermissions env c a readMask)
      else (readCompleteCb c opcode a.handle (c.readAt (c.frozen a) offset).1
        (c.readAt (c.frozen a) offset).2).1 := by
  have hbusy : c.stored.pendingReadOp.isSome = false := by
    show c.pendingReadOp.isSome = false
    rw [hnone]
    rfl
  have hget' : gattDbGetAttribute c.stored.db handle = some (c.frozen a) := by
    rw [gattDbGetAttribute_stored, hget, Option.map_some]
  simp only [handleReadReq, hget', hbusy, Bool.false_eq_true, if_false, readAt_frozen]
  -- Permissions are those of the attribute, wherever its value is.
  by_cases hperm : checkPermissions env c a readMask = 0
  · have hperm' : checkPermissions env c.stored (c.frozen a) readMask = 0 := hperm
    simp only [hperm, hperm', ne_eq, not_true_eq_false, if_false]
    rfl
  · have hperm' : checkPermissions env c.stored (c.frozen a) readMask
        = checkPermissions env c a readMask := rfl
    simp only [hperm', ne_eq, hperm, not_false_eq_true, if_true]
    rfl

/-- Single reads at offset zero see no difference. -/
theorem handleReadReq_zero (hidle : c.db.Idle) (hnone : c.pendingReadOp = none) {handle : ℕ}
    (hfits : ∀ a, gattDbGetAttribute c.db handle = some a → a.ReadFits) (opcode : ℕ) :
    (handleReadReq env c opcode handle 0).1 = (handleReadReq env c.stored opcode handle 0).1 := by
  rcases hget : gattDbGetAttribute c.db handle with _ | a
  · have hget' : gattDbGetAttribute c.stored.db handle = none := by
      rw [gattDbGetAttribute_stored, hget, Option.map_none]
    simp only [handleReadReq, hget, hget']
    rfl
  · rw [handleReadReq_events hidle hnone hget (hfits a hget),
      handleReadReq_stored hnone hget, readAt_zero, readAt_zero, readValue_frozen]

/-- Nor does a Read By Type Request, whose queue is filled beforehand. -/
theorem processReadByType_stored {q : List Attribute}
    (hq : ∀ a ∈ q, a.reads.queue = [] ∧ a.ReadFits) (db : GattDb) (pending : Option ℕ)
    (op : AsyncReadOp) :
    (processReadByType env { c with db, pendingReadOp := pending } op q).1 =
      (processReadByType env { c.stored with pendingReadOp := pending } op (q.map c.frozen)).1
    := by
  -- Induction on the queue. The database changes with every read of the first connection.
  induction q generalizing db op with
  | nil => rfl
  | cons a q ih =>
      rcases hq a List.mem_cons_self with ⟨hreads, hfits⟩
      simp only [List.map_cons, processReadByType]
      by_cases hdone : op.done = true
      · simp only [hdone, if_true]
        rfl
      simp only [hdone]
      have hperm : checkPermissions env { c.stored with pendingReadOp := pending } (c.frozen a)
          readMask = checkPermissions env { c with db, pendingReadOp := pending } a readMask := rfl
      rw [hperm]
      by_cases hcheck : checkPermissions env { c with db, pendingReadOp := pending } a readMask = 0
      · simp only [hcheck, ne_eq, not_true_eq_false, if_false, read_completes 0 hreads hfits,
          readAt_frozen, readAt_zero]
        exact ih (fun b hb => hq b (List.mem_cons_of_mem a hb)) _ _
      · simp only [ne_eq, hcheck, not_false_eq_true, if_true]
        rfl

/-- The attributes of a type in a range are the same ones. -/
theorem gattDbReadByType_mapAttributes {f : Attribute → Attribute}
    (hhandle : ∀ a, (f a).handle = a.handle) (huuid : ∀ a, (f a).uuid = a.uuid) (db : GattDb)
    (start stop : ℕ) (type : Uuid) :
    gattDbReadByType (db.mapAttributes f) start stop type
      = (gattDbReadByType db start stop type).map f := by
  have hattr : ∀ s : Service, ({ s with declaration := f s.declaration, rest := s.rest.map f }
      : Service).attributes = s.attributes.map f := fun s => rfl
  unfold gattDbReadByType mapAttributes
  rw [List.map_flatMap, List.filter_map, List.flatMap_map]
  simp only [Function.comp_def, Service.inRange, hattr, List.filter_map, List.takeWhile_map,
    hhandle, huuid]

theorem readByTypeCb_stored (hidle : c.db.Idle) (hnone : c.pendingReadOp = none) (opcode : ℕ)
    {pdu : List UInt8}
    (hfits : pdu.length = 6 ∨ pdu.length = 20 → getLe16 pdu ≠ 0 → ∀ a ∈ gattDbReadByType c.db
      (getLe16 pdu) (getLe16 (pdu.drop 2)) (Uuid.ofLe (pdu.drop 4)), a.ReadFits) :
    (readByTypeCb env c opcode pdu).1 = (readByTypeCb env c.stored opcode pdu).1 := by
  have hmap : ∀ start stop type, gattDbReadByType c.stored.db start stop type
      = (gattDbReadByType c.db start stop type).map c.frozen :=
    gattDbReadByType_mapAttributes (f := c.frozen) (fun _ => rfl) (fun _ => rfl) c.db
  have hnone' : c.stored.pendingReadOp = none := hnone
  simp only [readByTypeCb, hmap, List.isEmpty_map, hnone, hnone']
  split_ifs with hlen hzero hrange hempty
  · rfl
  · rfl
  · rfl
  · rfl
  · exact absurd ‹_› (by simp only [Option.isSome_none, Bool.false_eq_true, not_false_eq_true])
  · refine processReadByType_stored (fun a ha => ?_) c.db (some opcode) _
    exact ⟨(hidle a (mem_of_gattDbReadByType ha)).1, hfits (by omega) (by omega) a ha⟩

/-- Nor does a Read Multiple Request. The attribute it starts with is found in
    a database that the reads before it have changed. -/
theorem readMultipleGo_stored (hlayout : c.db.mapAttributes .blank = layout) {db : GattDb}
    (hidle : db.Idle) (hsame : db.mapAttributes .unread = c.db.mapAttributes .unread)
    {handle : ℕ} (hget : gattDbGetAttribute db handle = some a) (rspData : List UInt8)
    (handles : List ℕ)
    (hfits : ∀ b ∈ db.attributes, b.readFunc.isSome → b.reads.id.toNat +
      (readMultipleReads env { c with db } (c.attMtu - 1 - rspData.length)
        (handle :: handles)).count b.handle < 2 ^ 32) :
    (readMultipleGo env { c with db } rspData a handles).1
      = (readMultipleGo env c.stored rspData (c.frozen a) handles).1 := by
  -- One read of the stored values, which changes nothing.
  have hstored : ∀ rspData a, readMultipleCompleteCb env c.stored rspData (c.frozen a)
      = (c.stored, if checkPermissions env c a readMask ≠ 0 then
          .error (btAttSendErrorRsp c btAttOpReadMultReq a.handle
            (checkPermissions env c a readMask))
        else .ok (rspData ++ (c.readValue a).take (c.attMtu - rspData.length - 1))) := by
    intro rspData a
    simp only [readMultipleCompleteCb, readAt_frozen, readAt_zero]
    rfl
  -- Induction on the handles. The first database changes with every read, and the second stays.
  induction handles generalizing db handle a rspData with
  | nil =>
      rcases first_read hlayout hidle hsame hget hfits with ⟨hfit, _, _⟩
      have ha := (mem_of_gattDbGetAttribute hget).1
      rw [readMultipleGo, readMultipleGo, readMultipleCompleteCb_eq (hidle a ha).1 hfit, hstored]
      by_cases hcheck : checkPermissions env c a readMask = 0
      · have hcheck' : checkPermissions env { c with db } a readMask = 0 := hcheck
        simp only [hcheck, hcheck', ne_eq, not_true_eq_false, if_false]
        rfl
      · have hcheck' : checkPermissions env { c with db } a readMask
            = checkPermissions env c a readMask := rfl
        simp only [hcheck', ne_eq, hcheck, not_false_eq_true, if_true]
        rfl
  | cons next handles ih =>
      rcases first_read hlayout hidle hsame hget hfits with ⟨hfit, hidle', hsame'⟩
      have ha := (mem_of_gattDbGetAttribute hget).1
      rw [readMultipleGo, readMultipleGo, readMultipleCompleteCb_eq (hidle a ha).1 hfit, hstored]
      by_cases hcheck : checkPermissions env c a readMask = 0
      · have hcheck' : checkPermissions env { c with db } a readMask = 0 := hcheck
        have hvalue : rspData ++ (Connection.readValue { c with db } a).take
            (c.attMtu - rspData.length - 1) = appendValue c rspData a := rfl
        have hvalue' : rspData ++ (c.readValue a).take (c.attMtu - rspData.length - 1)
            = appendValue c rspData a := rfl
        simp only [hcheck, hcheck', ne_eq, not_true_eq_false, if_false, hvalue, hvalue']
        by_cases hfull : (appendValue c rspData a).length ≥ c.attMtu - 1
        · have hfull' : (appendValue c rspData a).length ≥ c.stored.attMtu - 1 := hfull
          simp only [hfull, hfull', if_true]
          rfl
        have hfull' : ¬(appendValue c rspData a).length ≥ c.stored.attMtu - 1 := hfull
        simp only [hfull, hfull', if_false]
        rw [← frozen_unread hsame' next]
        rcases hnext : gattDbGetAttribute (db.afterRead a) next with _ | b
        · rfl
        · exact ih hidle' hsame' hnext (appendValue c rspData a)
            (fits_next hget hcheck' (hsame'.trans hsame.symm) hfull hfits)
      · have hcheck' : checkPermissions env { c with db } a readMask
            = checkPermissions env c a readMask := rfl
        simp only [hcheck', ne_eq, hcheck, not_false_eq_true, if_true]
        rfl

theorem readMultipleCb_stored (hlayout : c.db.mapAttributes .blank = layout) (hidle : c.db.Idle)
    (opcode : ℕ) {pdu : List UInt8}
    (hfits : 4 ≤ pdu.length → ∀ b ∈ c.db.attributes, b.readFunc.isSome → b.reads.id.toNat +
      (readMultipleReads env c (c.attMtu - 1) (getHandles pdu)).count b.handle < 2 ^ 32) :
    (readMultipleCb env c opcode pdu).1 = (readMultipleCb env c.stored opcode pdu).1 := by
  unfold readMultipleCb
  by_cases hlen : pdu.length < 4
  · rw [if_pos hlen, if_pos hlen]
    rfl
  rw [if_neg hlen, if_neg hlen]
  have hfits' := hfits (Nat.le_of_not_lt hlen)
  rcases hhandles : getHandles pdu with _ | ⟨handle, handles⟩
  · rfl
  rw [hhandles] at hfits'
  simp only [gattDbGetAttribute_stored]
  rcases hget : gattDbGetAttribute c.db handle with _ | a
  · rfl
  · exact readMultipleGo_stored hlayout hidle rfl hget [] handles hfits'

end Stored

namespace Ccc

def handle : Ccc → ℕ
  | svcChngd => 11
  | readData => 15

def readFunc : Ccc → ReadFunc
  | svcChngd => .gattSvcChngdCccReadCb
  | readData => .clockReadDataCccReadCb

/-- The current value of the CCC. -/
def value (ccc : Ccc) (server : Server) : List UInt8 :=
  [if ccc.flag server then ccc.on else 0x00, 0x00]

end Ccc

/-- The value that a read of the attribute with the given handle should get. -/
def Connection.valueAt (c : Connection) (handle : ℕ) : List UInt8 :=
  if handle = Ccc.svcChngd.handle then Ccc.svcChngd.value c.server
  else if handle = Ccc.readData.handle then Ccc.readData.value c.server
  else ((gattDbGetAttribute c.db handle).map c.readValue).getD []

section Values

variable {env : Env} {c : Connection} {a : Attribute}

/-- The read callbacks do not look at the offset. -/
theorem call_ccc (ccc : Ccc) (server : Server) (offset : ℕ) :
    ccc.readFunc.call server offset = ccc.value server := by
  cases ccc with
  | svcChngd => rfl
  | readData => rfl

/-- Each CCC is in the database, with its callback, and may be read. -/
theorem gattDbGetAttribute_ccc (hlayout : c.db.mapAttributes .blank = layout) (ccc : Ccc) :
    ∃ a, gattDbGetAttribute c.db ccc.handle = some a ∧ a.readFunc = some ccc.readFunc ∧
      a.permissions = btAttPermRead ||| btAttPermWrite := by
  have hget : (gattDbGetAttribute layout ccc.handle).map (fun a => (a.readFunc, a.permissions))
      = some (some ccc.readFunc, btAttPermRead ||| btAttPermWrite) := by
    cases ccc <;> decide
  rw [← gattDbGetAttribute_layout hlayout, Option.map_map, Option.map_eq_some_iff] at hget
  rcases hget with ⟨a, ha, heq⟩
  exact ⟨a, ha, congrArg Prod.fst heq, congrArg Prod.snd heq⟩

theorem readAt_ccc {ccc : Ccc} (hf : a.readFunc = some ccc.readFunc) (offset : ℕ) :
    c.readAt a offset = (0, ccc.value c.server) := by
  unfold Connection.readAt
  rw [hf, ← call_ccc ccc c.server offset]

theorem readAt_frozen_ccc {ccc : Ccc} (hf : a.readFunc = some ccc.readFunc) (offset : ℕ) :
    c.readAt (c.frozen a) offset = if offset ≤ 2 then (0, (ccc.value c.server).drop offset)
      else (btAttErrorInvalidOffset, []) := by
  have hvalue : c.readValue a = ccc.value c.server := by
    unfold Connection.readValue
    rw [hf, ← call_ccc ccc c.server 0]
  have hlen : (ccc.value c.server).length = 2 := rfl
  simp only [Connection.readAt, Connection.frozen, hvalue, hlen]
  by_cases hoff : offset ≤ 2
  · rw [if_neg (by omega), if_pos hoff]
  · rw [if_pos (by omega), if_neg hoff]

/-- A lookup by handle finds the value that a read gets. -/
theorem readValue_eq (hlayout : c.db.mapAttributes .blank = layout) {handle : ℕ}
    (hget : gattDbGetAttribute c.db handle = some a) : c.readValue a = c.valueAt handle := by
  have hccc : ∀ ccc : Ccc, handle = ccc.handle → c.readValue a = ccc.value c.server := by
    intro ccc hhandle
    rcases gattDbGetAttribute_ccc hlayout ccc with ⟨b, hb, hf, _⟩
    rw [hhandle, hb, Option.some.injEq] at hget
    rw [← hget, Connection.readValue, hf]
    exact call_ccc ccc c.server 0
  unfold Connection.valueAt
  split_ifs with hsvc hdata
  · exact hccc .svcChngd hsvc
  · exact hccc .readData hdata
  · rw [hget]
    rfl

/-- A CCC may be read. -/
theorem checkPermissions_ccc (hsec : 0 ≤ env.security)
    (hperm : a.permissions = btAttPermRead ||| btAttPermWrite) :
    checkPermissions env c a readMask = 0 :=
  checkPermissions_open hsec hperm (by decide) (by decide) (by decide)

end Values

section ByType

variable {env : Env} {c : Connection}

/-- On handles in increasing order the search is a filter. -/
theorem takeWhile_le {l : List Attribute} (h : (l.map Attribute.handle).Pairwise (· < ·))
    (stop : ℕ) : l.takeWhile (fun a => ¬a.handle > stop) = l.filter fun a => ¬a.handle > stop := by
  induction l with
  | nil => rfl
  | cons a l ih =>
      rw [List.map_cons, List.pairwise_cons] at h
      by_cases ha : a.handle > stop
      · -- Behind an attribute past the end there are only later ones.
        have hrest : l.filter (fun a => decide ¬a.handle > stop) = [] := by
          rw [List.filter_eq_nil_iff]
          intro b hb
          have hlt := h.1 b.handle (List.mem_map_of_mem hb)
          simp only [decide_eq_true_eq, not_not]
          omega
        simp only [List.takeWhile_cons, List.filter_cons, ha, not_true_eq_false, decide_false,
          Bool.false_eq_true, if_false, hrest]
      · simp only [List.takeWhile_cons, List.filter_cons, ha, not_false_eq_true, decide_true,
          if_true, ih h.2]

theorem services_layout {db : GattDb} (hlayout : db.mapAttributes .blank = layout) :
    ∀ s ∈ db.services, s.active = true ∧
      (s.attributes.map Attribute.handle).Pairwise (· < ·) := by
  have hall : ∀ s ∈ layout.services, s.active = true ∧
      (s.attributes.map Attribute.handle).Pairwise (· < ·) := by decide
  intro s hs
  -- The blank service has the same handles.
  have hmem : { s with declaration := s.declaration.blank, rest := s.rest.map Attribute.blank }
      ∈ layout.services := by
    rw [← hlayout]
    exact List.mem_map_of_mem hs
  have hblank := hall _ hmem
  have hmap : (s.attributes.map Attribute.blank).map Attribute.handle
      = s.attributes.map Attribute.handle := by
    rw [List.map_map]
    rfl
  rw [← hmap]
  exact hblank

/-- A Read By Type Request for CCCs finds those in its range. -/
theorem gattDbReadByType_ccc {db : GattDb} (hlayout : db.mapAttributes .blank = layout)
    {type : Uuid} (htype : type.cmp gattClientCharacCfgUuid) (start stop : ℕ) :
    (gattDbReadByType db start stop type).map Attribute.handle
      = ([Ccc.svcChngd, .readData].map Ccc.handle).filter
          fun handle => start ≤ handle ∧ handle ≤ stop := by
  have hcmp : ∀ a : Attribute, type.cmp a.uuid = gattClientCharacCfgUuid.cmp a.uuid := by
    intro a
    rw [Uuid.cmp, beq_iff_eq] at htype
    rw [Uuid.cmp, Uuid.cmp, htype]
  -- The database is sorted, so the search is a filter of all attributes.
  have hfilter : gattDbReadByType db start stop type
      = (db.attributes.filter fun a => gattClientCharacCfgUuid.cmp a.uuid).filter
          fun a => start ≤ a.handle ∧ a.handle ≤ stop := by
    have hactive : db.services.filter (fun s => s.active) = db.services :=
      List.filter_eq_self.mpr fun s hs => (services_layout hlayout s hs).1
    rw [gattDbReadByType, hactive, GattDb.attributes, List.filter_flatMap, List.filter_flatMap]
    refine List.flatMap_congr fun s hs => ?_
    have hsorted := (services_layout hlayout s hs).2
    have hsub : ((s.attributes.filter fun a => decide ¬a.handle < start).map
        Attribute.handle).Pairwise (· < ·) := hsorted.sublist (List.filter_sublist.map _)
    rw [Service.inRange, takeWhile_le hsub, List.filter_filter, List.filter_filter,
      List.filter_filter]
    refine List.filter_congr fun a _ => ?_
    rw [hcmp, Bool.eq_iff_iff]
    simp only [Bool.and_eq_true, decide_eq_true_eq, gt_iff_lt, not_lt]
    constructor
    · rintro ⟨⟨huuid, hstop⟩, hstart⟩
      exact ⟨⟨hstart, hstop⟩, huuid⟩
    · rintro ⟨⟨hstart, hstop⟩, huuid⟩
      exact ⟨⟨huuid, hstop⟩, hstart⟩
  have hccc : (db.attributes.filter fun a => gattClientCharacCfgUuid.cmp a.uuid).map
      Attribute.handle = [Ccc.svcChngd, .readData].map Ccc.handle := by
    have hlay : (layout.attributes.filter fun a => gattClientCharacCfgUuid.cmp a.uuid).map
        Attribute.handle = [Ccc.svcChngd, .readData].map Ccc.handle := by decide
    rw [← hlay, ← hlayout, attributes_mapAttributes, List.filter_map, List.map_map]
    rfl
  rw [hfilter, ← hccc, List.filter_map]
  rfl

/-- A stored value that may be read is added to the response. -/
theorem processReadByType_frozen {op : AsyncReadOp} {a : Attribute} (hdone : op.done = false)
    (hcheck : checkPermissions env c a readMask = 0) (q : List Attribute) (pending : Option ℕ) :
    processReadByType env { c.stored with pendingReadOp := pending } op ((a :: q).map c.frozen)
      = processReadByType env { c.stored with pendingReadOp := pending }
        (op.complete c.attMtu a.handle (c.readValue a)) (q.map c.frozen) := by
  have hcheck' : checkPermissions env { c.stored with pendingReadOp := pending } (c.frozen a)
      readMask = 0 := hcheck
  simp only [List.map_cons, processReadByType, hdone, Bool.false_eq_true, if_false, hcheck',
    ne_eq, not_true_eq_false, readAt_frozen, readAt_zero, readValue_frozen]
  rfl

/-- The attributes that a Read By Type Request reads, all of which hold two
    bytes, are appended in order while there is room. -/
theorem processReadByType_values {op : AsyncReadOp} {q : List Attribute}
    (hop : op.pdu ≠ [] ∧ op.valueLen = 2 ∧ op.done = false)
    (hq : ∀ a ∈ q, (c.readValue a).length = 2 ∧ checkPermissions env c a readMask = 0)
    (hroom : op.pdu.length + 4 * q.length < c.attMtu - 1) (pending : Option ℕ) :
    (processReadByType env { c.stored with pendingReadOp := pending } op (q.map c.frozen)).1 =
      [.queued btAttOpReadByTypeRsp
        (op.pdu ++ q.flatMap fun a => leBytes 2 a.handle ++ c.readValue a)] := by
  -- Induction on the queue, with what the response holds so far.
  induction q generalizing op with
  | nil =>
      rw [List.length_nil, Nat.mul_zero, Nat.add_zero] at hroom
      simp only [List.map_nil, processReadByType, List.flatMap_nil, List.append_nil]
      exact if_neg (show ¬1 + op.pdu.length > c.attMtu by omega)
  | cons a q ih =>
      rcases hq a List.mem_cons_self with ⟨hlen, hcheck⟩
      rcases hop with ⟨hpdu, hvalueLen, hdone⟩
      have hne : ¬op.pdu.length = 0 := fun h => hpdu (List.length_eq_zero_iff.mp h)
      rw [List.length_cons] at hroom
      -- Neither is the response full, nor has the value another length.
      have hcomplete : op.complete c.attMtu a.handle (c.readValue a)
          = { op with pdu := op.pdu ++ leBytes 2 a.handle ++ c.readValue a } := by
        have htake : (c.readValue a).take 2 = c.readValue a :=
          List.take_of_length_le (le_of_eq hlen)
        have hfull : ¬op.pdu.length + 2 + 2 > c.attMtu - 1 := by omega
        have hend : ¬(op.pdu ++ leBytes 2 a.handle ++ c.readValue a).length = c.attMtu - 1 := by
          simp only [List.length_append, length_leBytes, hlen]
          omega
        simp only [AsyncReadOp.complete, hne, decide_false, Bool.false_eq_true, if_false,
          not_false_eq_true, true_and, hvalueLen, hlen, ne_eq, not_true_eq_false, hfull, htake,
          hend, hdone, Bool.or_false]
      rw [processReadByType_frozen hdone hcheck, hcomplete, ih, List.flatMap_cons,
        ← List.append_assoc, ← List.append_assoc]
      · exact ⟨fun h => hpdu (List.append_eq_nil_iff.mp (List.append_eq_nil_iff.mp h).1).1,
          hvalueLen, hdone⟩
      · exact fun b hb => hq b (List.mem_cons_of_mem a hb)
      · simp only [List.length_append, length_leBytes, hlen]
        omega

/-- The first value sets the length of the entries. -/
theorem processReadByType_first {q : List Attribute} (hne : q ≠ [])
    (hq : ∀ a ∈ q, (c.readValue a).length = 2 ∧ checkPermissions env c a readMask = 0)
    (hroom : 1 + 4 * q.length < c.attMtu - 1) (pending : Option ℕ) :
    (processReadByType env { c.stored with pendingReadOp := pending } ⟨[], 0, false⟩
        (q.map c.frozen)).1 =
      [.queued btAttOpReadByTypeRsp
        (4 :: q.flatMap fun a => leBytes 2 a.handle ++ c.readValue a)] := by
  cases q with
  | nil => exact absurd rfl hne
  | cons a q =>
      rcases hq a List.mem_cons_self with ⟨hlen, hcheck⟩
      rw [List.length_cons] at hroom
      -- The first read writes the length of an entry, two for the handle and two for the value.
      have hcomplete : AsyncReadOp.complete ⟨[], 0, false⟩ c.attMtu a.handle (c.readValue a)
          = ⟨4 :: (leBytes 2 a.handle ++ c.readValue a), 2, false⟩ := by
        have hmin : min (min (c.attMtu - 4) 253) 2 = 2 := by omega
        have htake : (c.readValue a).take 2 = c.readValue a :=
          List.take_of_length_le (le_of_eq hlen)
        have hhead : leBytes 1 (2 + 2) = [4] := by decide
        have hfull : ¬1 + 2 + 2 > c.attMtu - 1 := by omega
        have hend : ¬([4] ++ leBytes 2 a.handle ++ c.readValue a).length = c.attMtu - 1 := by
          simp only [List.length_append, length_leBytes, hlen, List.length_singleton]
          omega
        simp only [AsyncReadOp.complete, List.length_nil, decide_true, if_true, hlen, hmin, hhead,
          not_true_eq_false, false_and, if_false, List.length_singleton, hfull, htake, hend,
          decide_false, Bool.or_false, AsyncReadOp.mk.injEq, and_true]
        rfl
      rw [processReadByType_frozen rfl hcheck, hcomplete, processReadByType_values,
        List.flatMap_cons, List.cons_append]
      · exact ⟨List.cons_ne_nil _ _, rfl, rfl⟩
      · exact fun b hb => hq b (List.mem_cons_of_mem a hb)
      · simp only [List.length_cons, List.length_append, length_leBytes, hlen]
        omega

end ByType

section Multiple

variable {env : Env} {c : Connection} {a : Attribute}

/-- The values that a Read Multiple Request reads are appended in order if
    they all fit. -/
theorem readMultipleGo_values (hlayout : c.db.mapAttributes .blank = layout)
    (hcheck : checkPermissions env c a readMask = 0) {rspData : List UInt8} {handles : List ℕ}
    (hhandles : ∀ handle ∈ handles, ∃ b, gattDbGetAttribute c.db handle = some b ∧
      checkPermissions env c b readMask = 0)
    (hroom : 1 + (rspData ++ c.readValue a ++ handles.flatMap c.valueAt).length ≤ c.attMtu) :
    (readMultipleGo env c.stored rspData (c.frozen a) handles).1 =
      [.queued btAttOpReadMultRsp
        (rspData ++ c.readValue a ++ handles.flatMap c.valueAt)] := by
  -- One read, while the value fits.
  have hread : ∀ rspData a, checkPermissions env c a readMask = 0 →
      1 + (rspData ++ c.readValue a).length ≤ c.attMtu →
      readMultipleCompleteCb env c.stored rspData (c.frozen a)
        = (c.stored, .ok (rspData ++ c.readValue a)) := by
    intro rspData a hcheck hroom
    have hcheck' : checkPermissions env c.stored (c.frozen a) readMask = 0 := hcheck
    have htake : (c.readValue a).take (c.attMtu - rspData.length - 1) = c.readValue a := by
      rw [List.length_append] at hroom
      exact List.take_of_length_le (by omega)
    simp only [readMultipleCompleteCb, readAt_frozen, readAt_zero, readValue_frozen, hcheck',
      ne_eq, not_true_eq_false, if_false, Prod.mk.injEq, Except.ok.injEq, true_and]
    exact congrArg (rspData ++ ·) htake
  induction handles generalizing a rspData with
  | nil =>
      rw [List.flatMap_nil, List.append_nil] at hroom ⊢
      rw [readMultipleGo, hread rspData a hcheck hroom]
      exact if_neg (Nat.not_lt.mpr hroom)
  | cons handle handles ih =>
      rcases hhandles handle List.mem_cons_self with ⟨b, hget, hb⟩
      rw [List.flatMap_cons, ← readValue_eq hlayout hget, ← List.append_assoc] at hroom ⊢
      have hfirst : 1 + (rspData ++ c.readValue a).length ≤ c.attMtu := by
        simp only [List.length_append] at hroom ⊢
        omega
      rw [readMultipleGo, hread rspData a hcheck hfirst]
      simp only
      by_cases hfull : (rspData ++ c.readValue a).length ≥ c.stored.attMtu - 1
      · -- The response is full, so the values that are left are empty.
        have hempty : c.readValue b ++ handles.flatMap c.valueAt = [] := by
          have hfull' : (rspData ++ c.readValue a).length ≥ c.attMtu - 1 := hfull
          rw [← List.length_eq_zero_iff]
          simp only [List.length_append] at hroom hfull' ⊢
          omega
        rw [if_pos hfull, List.append_assoc _ (c.readValue b), hempty, List.append_nil]
        exact if_neg (Nat.not_lt.mpr hfirst)
      · rw [if_neg hfull, gattDbGetAttribute_stored, hget]
        exact ih hb (fun h hh => hhandles h (List.mem_cons_of_mem handle hh)) hroom

end Multiple

/-- The PDU is a read, and if it has an offset then it reads a CCC. -/
def ReadsCcc (i : Exchange) : Prop :=
  i.opcode = .readReq ∨ i.opcode = .readByTypeReq ∨ i.opcode = .readMultReq ∨
    i.opcode = .readBlobReq ∧ ∃ ccc : Ccc, getLe16 i.pdu = ccc.handle

/-- The PDU reads a CCC from an offset other than zero. -/
def CccOffset (i : Exchange) : Prop :=
  i.opcode = .readBlobReq ∧ i.pdu.length = 4 ∧ (∃ ccc : Ccc, getLe16 i.pdu = ccc.handle) ∧
    getLe16 (i.pdu.drop 2) ≠ 0

/-- The PDU is answered as if the CCCs were two bytes in the database. -/
structure ReportsCccs (c : Connection) (i : Exchange) : Prop where
  /-- A Read Request gets both bytes. -/
  request : i.opcode = .readReq → i.pdu.length = 2 → ∀ ccc : Ccc, getLe16 i.pdu = ccc.handle →
    (handleNotify c i).1 = [.queued btAttOpReadRsp (ccc.value c.server)]
  /-- A Read By Type Request gets both bytes of the CCCs in its range. -/
  byType : i.opcode = .readByTypeReq → i.pdu.length = 6 ∨ i.pdu.length = 20 →
    (Uuid.ofLe (i.pdu.drop 4)).cmp gattClientCharacCfgUuid → getLe16 i.pdu ≠ 0 →
    ∀ cccs, cccs = [Ccc.svcChngd, .readData].filter (fun ccc =>
      getLe16 i.pdu ≤ ccc.handle ∧ ccc.handle ≤ getLe16 (i.pdu.drop 2)) → cccs ≠ [] →
    (handleNotify c i).1 = [.queued btAttOpReadByTypeRsp
      (4 :: cccs.flatMap fun ccc => leBytes 2 ccc.handle ++ ccc.value c.server)]
  /-- A Read Multiple Request gets every value, if it may read them and they
      all fit. -/
  multiple : i.opcode = .readMultReq → 4 ≤ i.pdu.length →
    (∀ handle ∈ getHandles i.pdu, ∃ a, gattDbGetAttribute c.db handle = some a ∧
      checkPermissions i.toEnv c a readMask = 0) →
    1 + ((getHandles i.pdu).flatMap c.valueAt).length ≤ c.attMtu →
    (handleNotify c i).1 = [.queued btAttOpReadMultRsp ((getHandles i.pdu).flatMap c.valueAt)]
  /-- A Read Blob Request gets what is left after the offset. -/
  blob : i.opcode = .readBlobReq → i.pdu.length = 4 → ∀ ccc : Ccc, getLe16 i.pdu = ccc.handle →
    ∀ k, k = getLe16 (i.pdu.drop 2) → (handleNotify c i).1 =
      if k ≤ 2 then [.queued btAttOpReadBlobRsp ((ccc.value c.server).drop k)]
      else [.queued btAttOpErrorRsp (leBytes 1 btAttOpReadBlobReq ++ leBytes 2 ccc.handle ++
        leBytes 1 btAttErrorInvalidOffset)]
  /-- In general there is no difference to stored values. -/
  stored : ReadsCcc i → (handleNotify c i).1 = (handleNotify c.stored i).1

section Reports

variable {c : Connection} {i : Exchange} {env : Env}

/-- A single read of a CCC gets both bytes from any offset. -/
theorem handleReadReq_ccc (h : Ready c) (hsec : 0 ≤ env.security) (ccc : Ccc)
    (hfits : ∀ a, gattDbGetAttribute c.db ccc.handle = some a → a.ReadFits) (opcode offset : ℕ) :
    (handleReadReq env c opcode ccc.handle offset).1
      = [.queued (getReadRspOpcode opcode) (ccc.value c.server)] := by
  rcases gattDbGetAttribute_ccc h.layout ccc with ⟨a, hget, hf, hperm⟩
  have hmtu : 23 ≤ c.attMtu := h.mtu
  have hlen : (ccc.value c.server).length = 2 := rfl
  rw [handleReadReq_events h.idle h.noRead hget (hfits a hget), readAt_ccc hf,
    checkPermissions_ccc hsec hperm]
  simp only [ne_eq, not_true_eq_false, if_false, readCompleteCb]
  rw [List.take_of_length_le (by omega), btAttSend, if_neg (by omega)]

/-- A read of stored bytes gets those after the offset. -/
theorem handleReadReq_stored_ccc (h : Ready c) (hsec : 0 ≤ env.security) (ccc : Ccc)
    (opcode offset : ℕ) :
    (handleReadReq env c.stored opcode ccc.handle offset).1 =
      if offset ≤ 2 then [.queued (getReadRspOpcode opcode) ((ccc.value c.server).drop offset)]
      else [.queued btAttOpErrorRsp (leBytes 1 opcode ++ leBytes 2 ccc.handle ++
        leBytes 1 btAttErrorInvalidOffset)] := by
  rcases gattDbGetAttribute_ccc h.layout ccc with ⟨a, hget, hf, hperm⟩
  have hhandle : a.handle = ccc.handle := (mem_of_gattDbGetAttribute hget).2
  have hmtu : 23 ≤ c.attMtu := h.mtu
  have hlen : ((ccc.value c.server).drop offset).length ≤ 2 := by
    rw [List.length_drop]
    exact Nat.sub_le 2 offset
  rw [handleReadReq_stored h.noRead hget, readAt_frozen_ccc hf, checkPermissions_ccc hsec hperm,
    hhandle]
  simp only [ne_eq, not_true_eq_false, if_false, readCompleteCb]
  -- The database applies the offset, and answers with an error behind the end.
  by_cases hoff : offset ≤ 2
  · simp only [if_pos hoff, not_true_eq_false, if_false]
    rw [List.take_of_length_le (by omega), btAttSend, if_neg (by omega)]
  · have hne : ¬btAttErrorInvalidOffset = 0 := by decide
    simp only [if_neg hoff, hne, not_false_eq_true, if_true]
    exact errorRsp_eq h.mtu opcode ccc.handle btAttErrorInvalidOffset

/-- The two bytes differ from what is left of them after an offset. -/
theorem value_ne_drop (opcode k : ℕ) (ccc : Ccc) (server : Server) (hk : k ≠ 0) (pdu : List UInt8)
    (hop : opcode ≠ btAttOpErrorRsp) :
    [Event.queued opcode (ccc.value server)] ≠
      if k ≤ 2 then [.queued opcode ((ccc.value server).drop k)]
      else [.queued btAttOpErrorRsp pdu] := by
  have hlen : (ccc.value server).length = 2 := rfl
  split_ifs
  · intro heq
    rw [List.cons.injEq, Event.queued.injEq] at heq
    have hdrop := congrArg List.length heq.1.2
    rw [List.length_drop] at hdrop
    omega
  · intro heq
    rw [List.cons.injEq, Event.queued.injEq] at heq
    exact hop heq.1.1

theorem readValue_ccc (hlayout : c.db.mapAttributes .blank = layout) {a : Attribute}
    (ha : a ∈ c.db.attributes) {ccc : Ccc} (hhandle : a.handle = ccc.handle) :
    c.readValue a = c.valueAt a.handle ∧ a.permissions = btAttPermRead ||| btAttPermWrite := by
  rcases gattDbGetAttribute_ccc hlayout ccc with ⟨b, hget, _, hperm⟩
  rcases mem_of_gattDbGetAttribute hget with ⟨hb, hbh⟩
  have hab : a = b := eq_of_handle_eq hlayout ha hb (hhandle.trans hbh.symm)
  rw [hab, hbh]
  exact ⟨readValue_eq hlayout hget, hperm⟩

/-- A Read By Type Request for the CCCs. -/
theorem readByTypeCb_ccc (h : Ready c) (hsec : 0 ≤ env.security) (opcode : ℕ) {pdu : List UInt8}
    (hlen : pdu.length = 6 ∨ pdu.length = 20)
    (htype : (Uuid.ofLe (pdu.drop 4)).cmp gattClientCharacCfgUuid) (hzero : getLe16 pdu ≠ 0)
    {cccs : List Ccc} (hcccs : cccs = [Ccc.svcChngd, .readData].filter fun ccc =>
      getLe16 pdu ≤ ccc.handle ∧ ccc.handle ≤ getLe16 (pdu.drop 2)) (hne : cccs ≠ []) :
    (readByTypeCb env c.stored opcode pdu).1 = [.queued btAttOpReadByTypeRsp
      (4 :: cccs.flatMap fun ccc => leBytes 2 ccc.handle ++ ccc.value c.server)] := by
  have hmtu : 23 ≤ c.attMtu := h.mtu
  have hstored : ∀ start stop type, gattDbReadByType c.stored.db start stop type
      = (gattDbReadByType c.db start stop type).map c.frozen :=
    gattDbReadByType_mapAttributes (f := c.frozen) (fun _ => rfl) (fun _ => rfl) c.db
  have hmap := gattDbReadByType_ccc h.layout htype (getLe16 pdu) (getLe16 (pdu.drop 2))
  have hall : ∀ a ∈ gattDbReadByType c.db (getLe16 pdu) (getLe16 (pdu.drop 2))
      (Uuid.ofLe (pdu.drop 4)), a ∈ c.db.attributes := fun a ha => mem_of_gattDbReadByType ha
  simp only [readByTypeCb, hstored, List.isEmpty_map]
  generalize gattDbReadByType c.db (getLe16 pdu) (getLe16 (pdu.drop 2)) (Uuid.ofLe (pdu.drop 4))
    = q at hmap hall ⊢
  rw [List.filter_map] at hmap
  have hhandles : q.map Attribute.handle = cccs.map Ccc.handle := by
    rw [hmap, hcccs]
    rfl
  -- Each attribute found is a CCC, and its value is the CCC's.
  have hvalue : ∀ a ∈ q, c.readValue a = c.valueAt a.handle ∧
      a.permissions = btAttPermRead ||| btAttPermWrite ∧ (c.valueAt a.handle).length = 2 := by
    intro a ha
    have hmem : a.handle ∈ cccs.map Ccc.handle := by
      rw [← hhandles]
      exact List.mem_map_of_mem ha
    rcases List.mem_map.mp hmem with ⟨ccc, _, hccc⟩
    refine ⟨(readValue_ccc h.layout (hall a ha) hccc.symm).1,
      (readValue_ccc h.layout (hall a ha) hccc.symm).2, ?_⟩
    rw [← hccc]
    cases ccc <;> rfl
  have hflat : (q.flatMap fun a => leBytes 2 a.handle ++ c.readValue a)
      = cccs.flatMap fun ccc => leBytes 2 ccc.handle ++ ccc.value c.server := by
    calc (q.flatMap fun a => leBytes 2 a.handle ++ c.readValue a)
        = (q.map Attribute.handle).flatMap fun handle => leBytes 2 handle ++ c.valueAt handle := by
          rw [List.flatMap_map]
          exact List.flatMap_congr fun a ha => by rw [(hvalue a ha).1]
      _ = cccs.flatMap fun ccc => leBytes 2 ccc.handle ++ ccc.value c.server := by
          rw [hhandles, List.flatMap_map]
          refine List.flatMap_congr fun ccc _ => ?_
          cases ccc <;> rfl
  have hlength : q.length = cccs.length := by
    have := congrArg List.length hhandles
    rwa [List.length_map, List.length_map] at this
  have htwo : cccs.length ≤ 2 := by
    rw [hcccs]
    exact List.length_filter_le _ _
  have hpos : 0 < cccs.length := List.length_pos_iff.mpr hne
  have hqne : q ≠ [] := by
    intro hnil
    rw [hnil, List.length_nil] at hlength
    omega
  -- The range is not empty, as there is a CCC in it.
  rcases List.exists_mem_of_ne_nil cccs hne with ⟨ccc, hccc⟩
  rw [hcccs, List.mem_filter, decide_eq_true_eq] at hccc
  have hpending : c.stored.pendingReadOp.isSome = false := by
    show c.pendingReadOp.isSome = false
    rw [h.noRead]
    rfl
  have hempty : q.isEmpty = false := List.isEmpty_eq_false_iff.mpr hqne
  rw [if_neg (by omega), if_neg (by omega), if_neg (by omega), hempty, hpending]
  simp only [Bool.false_eq_true, if_false]
  rw [processReadByType_first hqne (fun a ha => ?_) (by omega), hflat]
  rw [(hvalue a ha).1]
  exact ⟨(hvalue a ha).2.2, checkPermissions_ccc hsec (hvalue a ha).2.1⟩

/-- A Read Multiple Request whose values fit. -/
theorem readMultipleCb_values (h : Ready c) (opcode : ℕ) {pdu : List UInt8}
    (hlen : 4 ≤ pdu.length)
    (hhandles : ∀ handle ∈ getHandles pdu, ∃ a, gattDbGetAttribute c.db handle = some a ∧
      checkPermissions env c a readMask = 0)
    (hroom : 1 + ((getHandles pdu).flatMap c.valueAt).length ≤ c.attMtu) :
    (readMultipleCb env c.stored opcode pdu).1
      = [.queued btAttOpReadMultRsp ((getHandles pdu).flatMap c.valueAt)] := by
  unfold readMultipleCb
  rw [if_neg (Nat.not_lt.mpr hlen)]
  rcases hq : getHandles pdu with _ | ⟨handle, handles⟩
  · -- Four bytes hold two handles.
    rcases pdu with _ | ⟨lo, _ | ⟨hi, pdu⟩⟩
    · exact absurd hlen (by decide)
    · exact absurd hlen (by simp only [List.length_singleton, Nat.reduceLeDiff, not_false_eq_true])
    · exact absurd hq (List.cons_ne_nil _ _)
  · rw [hq] at hhandles hroom
    rcases hhandles handle List.mem_cons_self with ⟨a, hget, hcheck⟩
    simp only [gattDbGetAttribute_stored, hget, Option.map_some]
    rw [List.flatMap_cons, ← readValue_eq h.layout hget] at hroom ⊢
    exact readMultipleGo_values h.layout hcheck
      (fun b hb => hhandles b (List.mem_cons_of_mem handle hb)) hroom

/-- A single read has room for its identifier. -/
theorem readFits_single (hfits : Fits c i) {handle : ℕ} (hmem : handle ∈ readsOf c i) :
    ∀ a, gattDbGetAttribute c.db handle = some a → a.ReadFits := by
  intro a hget
  rcases mem_of_gattDbGetAttribute hget with ⟨ha, hhandle⟩
  exact readFits_of_mem hfits ha (hhandle ▸ hmem)

/-- The reads at offset zero see no difference to stored values. -/
theorem handleNotify_stored (h : Ready c) (hfits : Fits c i)
    (hop : i.opcode = .readReq ∨ i.opcode = .readByTypeReq ∨ i.opcode = .readMultReq) :
    (handleNotify c i).1 = (handleNotify c.stored i).1 := by
  rcases hop with hop | hop | hop
  · simp only [handleNotify, hop, Prod.map, id, readCb]
    by_cases hlen : i.pdu.length = 2
    · rw [if_neg (not_not_intro hlen), if_neg (not_not_intro hlen)]
      refine handleReadReq_zero h.idle h.noRead (readFits_single hfits ?_) btAttOpReadReq
      simp only [readsOf, hop, if_pos hlen, List.mem_singleton]
    · rw [if_pos hlen, if_pos hlen]
      rfl
  · simp only [handleNotify, hop, Prod.map, id]
    refine readByTypeCb_stored h.idle h.noRead btAttOpReadByTypeReq fun hlen hzero a ha => ?_
    refine readFits_of_mem hfits (mem_of_gattDbReadByType ha) ?_
    simp only [readsOf, hop, if_pos (And.intro hlen hzero)]
    exact List.mem_map_of_mem ha
  · simp only [handleNotify, hop, Prod.map, id]
    refine readMultipleCb_stored h.layout h.idle btAttOpReadMultReq fun hlen => ?_
    have hreads := hfits.reads
    simp only [readsOf, hop, if_pos hlen] at hreads
    exact hreads

/-- A Read Blob Request for a CCC. -/
theorem handleNotify_blob (h : Ready c) (hsec : 0 ≤ i.security) (hfits : Fits c i)
    (hop : i.opcode = .readBlobReq) (hlen : i.pdu.length = 4) {ccc : Ccc}
    (hhandle : getLe16 i.pdu = ccc.handle) :
    (handleNotify c i).1 = [.queued btAttOpReadBlobRsp (ccc.value c.server)] := by
  simp only [handleNotify, hop, Prod.map, id, readBlobCb]
  rw [if_neg (not_not_intro hlen), hhandle]
  refine handleReadReq_ccc h hsec ccc (readFits_single hfits ?_) btAttOpReadBlobReq _
  simp only [readsOf, hop, if_pos hlen, hhandle, List.mem_singleton]

/-- On a connection that is ready, a PDU is answered as if the CCCs were
    stored exactly if it does not read one of them from an offset. -/
theorem reports_iff (h : Ready c) (hsec : 0 ≤ i.security) (hfits : Fits c i) :
    ReportsCccs c i ↔ ¬CccOffset i := by
  constructor
  · rintro hreports ⟨hop, hlen, ⟨ccc, hhandle⟩, hoff⟩
    -- What is expected and what is answered differ.
    have hblob := hreports.blob hop hlen ccc hhandle _ rfl
    rw [handleNotify_blob h hsec hfits hop hlen hhandle] at hblob
    exact value_ne_drop _ _ ccc c.server hoff _ (by decide) hblob
  · intro hoffset
    have hzero : i.opcode = .readBlobReq → i.pdu.length = 4 → ∀ ccc : Ccc,
        getLe16 i.pdu = ccc.handle → getLe16 (i.pdu.drop 2) = 0 := by
      intro hop hlen ccc hhandle
      by_contra hne
      exact hoffset ⟨hop, hlen, ⟨ccc, hhandle⟩, hne⟩
    -- One goal for each procedure, and one for the comparison with stored values.
    refine ⟨?_, ?_, ?_, ?_, ?_⟩
    · intro hop hlen ccc hhandle
      simp only [handleNotify, hop, Prod.map, id, readCb]
      rw [if_neg (not_not_intro hlen), hhandle]
      refine handleReadReq_ccc h hsec ccc (readFits_single hfits ?_) btAttOpReadReq 0
      simp only [readsOf, hop, if_pos hlen, hhandle, List.mem_singleton]
    · intro hop hlen htype hstart cccs hcccs hne
      rw [handleNotify_stored h hfits (Or.inr (Or.inl hop))]
      simp only [handleNotify, hop, Prod.map, id]
      exact readByTypeCb_ccc h hsec btAttOpReadByTypeReq hlen htype hstart hcccs hne
    · intro hop hlen hhandles hroom
      rw [handleNotify_stored h hfits (Or.inr (Or.inr hop))]
      simp only [handleNotify, hop, Prod.map, id]
      exact readMultipleCb_values h btAttOpReadMultReq hlen hhandles hroom
    · intro hop hlen ccc hhandle k hk
      rw [hk, hzero hop hlen ccc hhandle, if_pos (Nat.zero_le 2), List.drop_zero]
      exact handleNotify_blob h hsec hfits hop hlen hhandle
    · rintro (hop | hop | hop | ⟨hop, ccc, hhandle⟩)
      · exact handleNotify_stored h hfits (Or.inl hop)
      · exact handleNotify_stored h hfits (Or.inr (Or.inl hop))
      · exact handleNotify_stored h hfits (Or.inr (Or.inr hop))
      · by_cases hlen : i.pdu.length = 4
        · rw [handleNotify_blob h hsec hfits hop hlen hhandle]
          simp only [handleNotify, hop, Prod.map, id, readBlobCb]
          rw [if_neg (not_not_intro hlen), hhandle, handleReadReq_stored_ccc h hsec,
            hzero hop hlen ccc hhandle, if_pos (Nat.zero_le 2), List.drop_zero]
          rfl
        · simp only [handleNotify, hop, Prod.map, id, readBlobCb]
          rw [if_pos hlen, if_pos hlen]
          rfl

end Reports

/-- In every state of a connection on which every PDU fits, a PDU that fits is
    answered as if the CCCs were two bytes in the database exactly if it does
    not read one of them from an offset other than zero. -/
theorem reportsCccs_iff (globals : Globals) (mtu : ℕ) (c m : Connection) (is : List Exchange)
    (i : Exchange) (hconnect : connect globals mtu = some c)
    (hsteps : gattMachine.Steps Fits c is) (hr : gattMachine.Reaches c is m)
    (hsec : 0 ≤ i.security) (hfits : Fits m i) : ReportsCccs m i ↔ ¬CccOffset i :=
  reports_iff (ready_reaches hconnect hsteps hr) hsec hfits

theorem size_cccBlob (offset : UInt8) : 1 + [15, 0, offset, 0].length < 2 ^ 16 :=
  show 5 < 2 ^ 16 by decide

/-- A Read Blob Request for the READ_DATA CCC from the given offset. -/
def Exchange.cccBlob (offset : UInt8) : Exchange :=
  { Env.sample with opcode := .readBlobReq, pdu := [15, 0, offset, 0], size := size_cccBlob offset }

/-- On a new connection every single read fits. -/
theorem fits_cccBlob (offset : UInt8) : ∃ c, connect (Globals.init 0) 0 = some c ∧
    c.server = ⟨10, false, 14, 18, false⟩ ∧ Fits c (.cccBlob offset) := by
  rcases populateDb_layout with ⟨db, hdb, _, hempty⟩
  refine ⟨btGattServerNew ⟨10, false, 14, 18, false⟩ db (Globals.init 0) 0 0, ?_, rfl, ?_, ?_, ?_⟩
  · rw [connect, hdb]
    rfl
  · intro a ha _
    have hreads : readsOf (btGattServerNew ⟨10, false, 14, 18, false⟩ db (Globals.init 0) 0 0)
        (.cccBlob offset) = [15] := rfl
    have hzero : a.reads.id.toNat = 0 := by
      rw [(hempty a ha).1]
      rfl
    have hcount : [15].count a.handle ≤ 1 := List.count_le_length
    rw [hreads, hzero]
    omega
  · rintro (⟨hop | hop, _⟩ | ⟨hop, _⟩) <;> cases hop
  · rintro ⟨hop, _⟩
    cases hop

/-- At offset zero all is well. -/
theorem reportsCccs_cccBlob : ∃ c, connect (Globals.init 0) 0 = some c ∧
    ReportsCccs c (.cccBlob 0) := by
  rcases fits_cccBlob 0 with ⟨c, hconnect, _, hfits⟩
  refine ⟨c, hconnect, (reportsCccs_iff (Globals.init 0) 0 c c [] (.cccBlob 0) hconnect trivial
    rfl (by decide) hfits).mpr ?_⟩
  rintro ⟨_, _, _, hoff⟩
  exact hoff (by decide)

/-- A Read Blob Request at offset one gets both bytes again. -/
theorem cccBlob_both_bytes : ∃ c, connect (Globals.init 0) 0 = some c ∧
    (handleNotify c (.cccBlob 1)).1 = [.queued btAttOpReadBlobRsp [0x00, 0x00]] ∧
    ¬ReportsCccs c (.cccBlob 1) := by
  rcases fits_cccBlob 1 with ⟨c, hconnect, hserver, hfits⟩
  have hhandle : getLe16 (Exchange.cccBlob 1).pdu = Ccc.readData.handle := by decide
  have hblob := handleNotify_blob (ready_connect hconnect) (by decide) hfits rfl rfl hhandle
  have hvalue : Ccc.readData.value c.server = [0x00, 0x00] := by
    rw [hserver]
    rfl
  refine ⟨c, hconnect, hvalue ▸ hblob, fun h => ?_⟩
  have hreport := h.blob rfl rfl .readData hhandle 1 (by decide)
  rw [hblob, hvalue] at hreport
  exact absurd hreport (by decide)

end Wallclock
