import Wallclock.Theory.Database

/-!
# What Each Handler Does

One lemma for each request handler other than the three that write. None of
these calls the application's write callbacks, so none of them invokes
`clock_command` or sends a notification, and each leaves the connection as it
found it except for the identifier counters of the attributes it reads, or the
transmission unit. `Quiet` says this.

The condition is that no identifier wraps. A Read By Type Request reads each
attribute at most once, from a queue filled beforehand. A Read Multiple Request
can read one attribute many times, so its condition counts: `readMultipleReads`
lists the handles it reads, which depends on the database only through what
reading does not change.

## Main definitions

* `Event.Plain`: A PDU other than a notification.
* `Quiet`: A handler that only queues plain PDUs and counts its reads.
* `readMultipleReads`: The handles a Read Multiple Request reads.
* `appendValue`: The response after one more read.

## Theorems

* `plain_send`, `plain_errorRsp`: What `bt_att_send` queues is plain.
* `quiet_of_plain`: A handler that leaves the connection alone.
* `blank_of_unread`, `gattDbGetAttribute_unread`: Databases that differ only
  in reads.
* `exchangeMtuCb_eq`: An MTU exchange sets the transmission unit.
* `readByGrpTypeCb_plain`, `findInfoCb_plain`, `findByTypeValCb_plain`:
  The handlers that only look at the database.
* `readCompleteCb_plain`, `handleReadReq_quiet`, `readCb_quiet`,
  `readBlobCb_quiet`: A single read.
* `mem_of_gattDbReadByType`, `processReadByType_quiet`, `readByTypeCb_quiet`:
  A Read By Type Request.
* `readMultipleReads_congr`: What is read does not depend on earlier reads.
* `fits_afterRead`: The identifiers still do not wrap after the first read.
* `readMultipleCompleteCb_eq`, `first_read`: That read.
* `fits_next`: They do not wrap in the reads behind it.
* `readMultipleGo_quiet`, `readMultipleCb_quiet`: A Read Multiple Request.
-/

namespace Wallclock

open GattDb

/-- A queued PDU that is not a notification. -/
def Event.Plain : Event → Prop
  | .queued opcode _ => opcode ≠ btAttOpHandleValNot
  | _ => False

theorem plain_send {c : Connection} {opcode : ℕ} {pdu : List UInt8}
    (h : opcode ≠ btAttOpHandleValNot) : ∀ e ∈ btAttSend c opcode pdu, e.Plain := by
  intro e he
  unfold btAttSend at he
  split_ifs at he
  · exact absurd he List.not_mem_nil
  · rw [List.mem_singleton.mp he]
    exact h

theorem plain_errorRsp {c : Connection} {opcode handle err : ℕ} :
    ∀ e ∈ btAttSendErrorRsp c opcode handle err, e.Plain :=
  plain_send (by decide)

/-- The handler queues plain PDUs, and changes nothing but the identifier
    counters of reads. -/
structure Quiet (c : Connection) (r : List Event × Connection) : Prop where
  plain : ∀ e ∈ r.1, e.Plain
  next : ∃ db, db.Idle ∧ db.mapAttributes .unread = c.db.mapAttributes .unread ∧
    r.2 = { c with db }

/-- A handler that leaves the connection alone. -/
theorem quiet_of_plain {c : Connection} {events : List Event} (hidle : c.db.Idle)
    (h : ∀ e ∈ events, e.Plain) : Quiet c (events, c) :=
  ⟨h, c.db, hidle, rfl, rfl⟩

section Unread

variable {db db' : GattDb} {a : Attribute}

theorem blank_of_unread (h : db'.mapAttributes .unread = db.mapAttributes .unread) :
    db'.mapAttributes .blank = db.mapAttributes .blank :=
  mapAttributes_eq_of_eq h fun _ => rfl

theorem gattDbGetAttribute_unread (h : db'.mapAttributes .unread = db.mapAttributes .unread)
    (handle : ℕ) :
    (gattDbGetAttribute db' handle).map Attribute.unread =
      (gattDbGetAttribute db handle).map Attribute.unread :=
  gattDbGetAttribute_of_eq h (fun _ => rfl) handle

end Unread

section LookOnly

variable (c : Connection) (opcode : ℕ) (pdu : List UInt8)

/-- An MTU exchange changes the transmission unit only, and keeps it at least
    the default. -/
theorem exchangeMtuCb_eq (hmtu : btAttDefaultLeMtu ≤ c.attMtu) :
    (∀ e ∈ (exchangeMtuCb c opcode pdu).1, e.Plain) ∧
      ∃ mtu attMtu, btAttDefaultLeMtu ≤ attMtu ∧
        (exchangeMtuCb c opcode pdu).2 = { c with mtu, attMtu } := by
  unfold exchangeMtuCb
  split_ifs
  · exact ⟨plain_errorRsp, c.mtu, c.attMtu, hmtu, rfl⟩
  · exact ⟨plain_send (by decide), _, _, Nat.le_max_right _ _, rfl⟩

theorem readByGrpTypeCb_plain : ∀ e ∈ readByGrpTypeCb c opcode pdu, e.Plain := by
  simp only [readByGrpTypeCb]
  split_ifs
  · exact plain_errorRsp
  · exact plain_errorRsp
  · exact plain_errorRsp
  · exact plain_errorRsp
  · exact plain_errorRsp
  · split
    · exact plain_errorRsp
    · exact plain_send (by decide)

theorem findInfoCb_plain : ∀ e ∈ findInfoCb c opcode pdu, e.Plain := by
  simp only [findInfoCb]
  split_ifs
  · exact plain_errorRsp
  · exact plain_errorRsp
  · exact plain_errorRsp
  · exact plain_errorRsp
  · split
    · exact plain_errorRsp
    · exact plain_send (by decide)

theorem findByTypeValCb_plain : ∀ e ∈ findByTypeValCb c opcode pdu, e.Plain := by
  simp only [findByTypeValCb]
  generalize List.foldl _ _ _ = data
  generalize (if data.1.length = 0 then btAttErrorAttributeNotFound else data.2) = ecode
  split_ifs
  · exact plain_errorRsp
  · exact plain_errorRsp
  · exact plain_errorRsp
  · exact plain_send (by decide)

end LookOnly

section Reads

variable {env : Env} {c : Connection}

theorem readCompleteCb_plain (opcode handle err : ℕ) (value : List UInt8) :
    ∀ e ∈ (readCompleteCb c opcode handle err value).1, e.Plain := by
  unfold readCompleteCb
  split_ifs
  · exact plain_errorRsp
  · refine plain_send ?_
    unfold getReadRspOpcode
    split_ifs <;> decide

/-- A single read. -/
theorem handleReadReq_quiet (hlayout : c.db.mapAttributes .blank = layout) (hidle : c.db.Idle)
    (hnone : c.pendingReadOp = none) (opcode handle offset : ℕ)
    (hfits : ∀ a, gattDbGetAttribute c.db handle = some a →
      checkPermissions env c a readMask = 0 → a.ReadFits) :
    Quiet c (handleReadReq env c opcode handle offset) := by
  unfold handleReadReq
  rcases hget : gattDbGetAttribute c.db handle with _ | a
  · exact quiet_of_plain hidle plain_errorRsp
  by_cases hperm : checkPermissions env c a readMask = 0
  · simp only [hperm, ne_eq, not_true_eq_false, if_false, hnone, Option.isSome_none,
      Bool.false_eq_true]
    have ha := (mem_of_gattDbGetAttribute hget).1
    rw [read_completes offset (hidle a ha).1 (hfits a hget hperm)]
    refine ⟨readCompleteCb_plain opcode a.handle _ _, c.db.afterRead a,
      hidle.afterRead (hidle a ha).2, unread_afterRead hlayout ha rfl, ?_⟩
    simp only [readCompleteCb, ← hnone]
  · simp only [ne_eq, hperm, not_false_eq_true, if_true]
    exact quiet_of_plain hidle plain_errorRsp

/-- The queue of a Read By Type Request, from the attributes of the database
    that the request began with. -/
theorem processReadByType_quiet (hlayout : c.db.mapAttributes .blank = layout)
    (hnone : c.pendingReadOp = none) {q : List Attribute}
    (hq : ∀ a ∈ q, a ∈ c.db.attributes ∧ a.reads.queue = [] ∧ a.writes.queue = [] ∧ a.ReadFits)
    {db : GattDb} (hidle : db.Idle)
    (hsame : db.mapAttributes .unread = c.db.mapAttributes .unread) (op : AsyncReadOp)
    (opcode : ℕ) :
    Quiet c (processReadByType env { c with db, pendingReadOp := some opcode } op q) := by
  -- Whatever ends the request clears the pending operation.
  have hend : ∀ events : List Event, (∀ e ∈ events, e.Plain) →
      Quiet c (events, { c with db, pendingReadOp := none }) := fun events hplain =>
    ⟨hplain, db, hidle, hsame, by rw [← hnone]⟩
  induction q generalizing db op with
  | nil => exact hend _ (plain_send (by decide))
  | cons a q ih =>
      unfold processReadByType
      split_ifs
      · exact hend _ (plain_send (by decide))
      by_cases hperm : checkPermissions env c a readMask = 0
      · have hperm' : checkPermissions env { c with db, pendingReadOp := some opcode } a readMask
            = 0 := hperm
        simp only [hperm', ne_eq, not_true_eq_false, if_false]
        rcases hq a List.mem_cons_self with ⟨ha, hreads, hwrites, hfits⟩
        -- The queue holds the attribute as it was before the earlier reads.
        rcases exists_of_mapAttributes_eq hsame ha with ⟨b, hb, hab⟩
        rw [read_completes 0 hreads hfits, readAt_zero]
        simp only [if_false, not_true_eq_false]
        have hsame' : (db.afterRead a).mapAttributes .unread = c.db.mapAttributes .unread :=
          (unread_afterRead ((blank_of_unread hsame).trans hlayout) hb hab).trans hsame
        exact ih (fun a' ha' => hq a' (List.mem_cons_of_mem _ ha')) (hidle.afterRead hwrites)
          hsame' _ fun events hplain =>
            ⟨hplain, _, hidle.afterRead hwrites, hsame', by rw [← hnone]⟩
      · have hperm' : checkPermissions env { c with db, pendingReadOp := some opcode } a readMask
            ≠ 0 := hperm
        simp only [hperm', ne_eq, not_false_eq_true, if_true]
        exact hend _ plain_errorRsp

theorem readCb_quiet (hlayout : c.db.mapAttributes .blank = layout) (hidle : c.db.Idle)
    (hnone : c.pendingReadOp = none) (opcode : ℕ) {pdu : List UInt8}
    (hfits : pdu.length = 2 → ∀ a, gattDbGetAttribute c.db (getLe16 pdu) = some a →
      checkPermissions env c a readMask = 0 → a.ReadFits) :
    Quiet c (readCb env c opcode pdu) := by
  unfold readCb
  by_cases hlen : pdu.length = 2
  · rw [if_neg (not_not_intro hlen)]
    exact handleReadReq_quiet hlayout hidle hnone opcode _ 0 (hfits hlen)
  · rw [if_pos hlen]
    exact quiet_of_plain hidle plain_errorRsp

theorem readBlobCb_quiet (hlayout : c.db.mapAttributes .blank = layout) (hidle : c.db.Idle)
    (hnone : c.pendingReadOp = none) (opcode : ℕ) {pdu : List UInt8}
    (hfits : pdu.length = 4 → ∀ a, gattDbGetAttribute c.db (getLe16 pdu) = some a →
      checkPermissions env c a readMask = 0 → a.ReadFits) :
    Quiet c (readBlobCb env c opcode pdu) := by
  unfold readBlobCb
  by_cases hlen : pdu.length = 4
  · rw [if_neg (not_not_intro hlen)]
    exact handleReadReq_quiet hlayout hidle hnone opcode _ _ (hfits hlen)
  · rw [if_pos hlen]
    exact quiet_of_plain hidle plain_errorRsp

/-- The attributes a Read By Type Request finds are attributes of the database. -/
theorem mem_of_gattDbReadByType {db : GattDb} {start stop : ℕ} {type : Uuid} {a : Attribute}
    (h : a ∈ gattDbReadByType db start stop type) : a ∈ db.attributes := by
  unfold gattDbReadByType at h
  rw [List.mem_flatMap] at h
  rcases h with ⟨s, hs, ha⟩
  have hrange := (List.takeWhile_sublist _).mem (List.mem_of_mem_filter ha)
  exact List.mem_flatMap.mpr ⟨s, List.mem_of_mem_filter hs, List.mem_of_mem_filter hrange⟩

theorem readByTypeCb_quiet (hlayout : c.db.mapAttributes .blank = layout) (hidle : c.db.Idle)
    (hnone : c.pendingReadOp = none) (opcode : ℕ) {pdu : List UInt8}
    (hfits : pdu.length = 6 ∨ pdu.length = 20 → getLe16 pdu ≠ 0 → ∀ a ∈ gattDbReadByType c.db
      (getLe16 pdu) (getLe16 (pdu.drop 2)) (Uuid.ofLe (pdu.drop 4)), a.ReadFits) :
    Quiet c (readByTypeCb env c opcode pdu) := by
  simp only [readByTypeCb]
  split_ifs with hlen hzero hrange hempty hpending
  · exact quiet_of_plain hidle plain_errorRsp
  · exact quiet_of_plain hidle plain_errorRsp
  · exact quiet_of_plain hidle plain_errorRsp
  · exact quiet_of_plain hidle plain_errorRsp
  · exact quiet_of_plain hidle plain_errorRsp
  · refine processReadByType_quiet hlayout hnone (fun a ha => ?_) hidle rfl _ opcode
    have hmem := mem_of_gattDbReadByType ha
    exact ⟨hmem, (hidle a hmem).1, (hidle a hmem).2, hfits (by omega) (by omega) a ha⟩

end Reads

section ReadMultiple

/-- The handles a Read Multiple Request reads, in order, where `room` bytes are
    left in the response: it ends at an unknown handle, after an attribute that
    may not be read, and when the response is full. -/
def readMultipleReads (env : Env) (c : Connection) : ℕ → List ℕ → List ℕ
  | _, [] => []
  | room, handle :: handles =>
    match gattDbGetAttribute c.db handle with
    | none => []
    | some a =>
      let len := (c.readValue a).length
      handle :: if checkPermissions env c a readMask = 0 ∧ len < room then
        readMultipleReads env c (room - len) handles else []

variable {env : Env} {c : Connection}

/-- Reading does not change what is read afterwards. -/
theorem readMultipleReads_congr {db db' : GattDb}
    (h : db'.mapAttributes .unread = db.mapAttributes .unread) (room : ℕ) (handles : List ℕ) :
    readMultipleReads env { c with db := db' } room handles
      = readMultipleReads env { c with db := db } room handles := by
  induction handles generalizing room with
  | nil => rfl
  | cons handle handles ih =>
      have hget := gattDbGetAttribute_unread h handle
      unfold readMultipleReads
      rcases ha : gattDbGetAttribute db handle with _ | a
      · rw [ha, Option.map_none, Option.map_eq_none_iff] at hget
        simp only [hget]
      · rw [ha, Option.map_some, Option.map_eq_some_iff] at hget
        rcases hget with ⟨b, hb, hba⟩
        -- Neither the value read nor the permission sees the queue of reads.
        have hvalue : Connection.readValue { c with db := db' } b
            = Connection.readValue { c with db := db } a := by
          show Connection.readValue c b.unread = Connection.readValue c a.unread
          rw [hba]
        have hperm : checkPermissions env { c with db := db' } b readMask
            = checkPermissions env { c with db := db } a readMask := by
          show checkPermissions env c b.unread readMask = checkPermissions env c a.unread readMask
          rw [hba]
        simp only [hb, hvalue, hperm, ih]

/-- The condition on the identifiers survives the first of the reads. -/
theorem fits_afterRead {db : GattDb} {a : Attribute} {handle : ℕ} {handles : List ℕ}
    (hhandle : a.handle = handle) (ha : a ∈ db.attributes)
    (hfits : ∀ b ∈ db.attributes, b.readFunc.isSome →
      b.reads.id.toNat + (handle :: handles).count b.handle < 2 ^ 32) :
    ∀ b ∈ (db.afterRead a).attributes, b.readFunc.isSome →
      b.reads.id.toNat + handles.count b.handle < 2 ^ 32 := by
  intro b hb hfunc
  unfold GattDb.afterRead at hb
  -- An attribute that is not read has no higher identifier, and is counted at most as often.
  have hle : ∀ d ∈ db.attributes, d.readFunc.isSome →
      d.reads.id.toNat + handles.count d.handle < 2 ^ 32 := fun d hd hdf =>
    lt_of_le_of_lt (Nat.add_le_add_left List.count_le_count_cons _) (hfits d hd hdf)
  split_ifs at hb with hread
  · rcases mem_setAttribute hb with rfl | ⟨hmem, _⟩
    · -- The attribute read has one count less and an identifier one higher.
      have hcount := hfits a ha hread
      rw [hhandle, List.count_cons_self] at hcount
      have hid : (a.reads.id + 1).toNat ≤ a.reads.id.toNat + 1 := by
        rw [BitVec.toNat_add]
        exact Nat.mod_le _ _
      simp only [hhandle]
      omega
    · exact hle b hmem hfunc
  · exact hle b hb hfunc

/-- A read of a Read Multiple Request that does not wrap. -/
theorem readMultipleCompleteCb_eq {a : Attribute} (hq : a.reads.queue = []) (hfits : a.ReadFits)
    (rspData : List UInt8) :
    readMultipleCompleteCb env c rspData a = ({ c with db := c.db.afterRead a },
      if checkPermissions env c a readMask ≠ 0 then
        .error (btAttSendErrorRsp c btAttOpReadMultReq a.handle
          (checkPermissions env c a readMask))
      else .ok (rspData ++ (c.readValue a).take (c.attMtu - rspData.length - 1))) := by
  unfold readMultipleCompleteCb
  rw [read_completes 0 hq hfits, readAt_zero]
  simp only [ne_eq, not_true_eq_false, if_false]
  rfl

/-- The first of some reads does not wrap, and leaves a database that differs
    only in reads. -/
theorem first_read (hlayout : c.db.mapAttributes .blank = layout) {db : GattDb}
    (hidle : db.Idle) (hsame : db.mapAttributes .unread = c.db.mapAttributes .unread)
    {handle : ℕ} {a : Attribute} (hget : gattDbGetAttribute db handle = some a) {room : ℕ}
    {handles : List ℕ} (hfits : ∀ b ∈ db.attributes, b.readFunc.isSome → b.reads.id.toNat +
      (readMultipleReads env { c with db } room (handle :: handles)).count b.handle < 2 ^ 32) :
    a.ReadFits ∧ (db.afterRead a).Idle ∧
      (db.afterRead a).mapAttributes .unread = c.db.mapAttributes .unread := by
  rcases mem_of_gattDbGetAttribute hget with ⟨ha, hhandle⟩
  refine ⟨fun hread => ?_, hidle.afterRead (hidle a ha).2,
    (unread_afterRead ((blank_of_unread hsame).trans hlayout) ha rfl).trans hsame⟩
  have hcount := hfits a ha hread
  rw [readMultipleReads] at hcount
  simp only [hget] at hcount
  rw [hhandle, List.count_cons_self] at hcount
  omega

/-- The response with the value of one more attribute. -/
def appendValue (c : Connection) (rspData : List UInt8) (a : Attribute) : List UInt8 :=
  rspData ++ (c.readValue a).take (c.attMtu - rspData.length - 1)

/-- If the response is not full after a read, the other reads fit behind it. -/
theorem fits_next {db : GattDb} {a : Attribute} {handle : ℕ}
    (hget : gattDbGetAttribute db handle = some a)
    (hperm : checkPermissions env { c with db } a readMask = 0)
    (hsame : (db.afterRead a).mapAttributes .unread = db.mapAttributes .unread)
    {rspData : List UInt8} (hfull : ¬(appendValue c rspData a).length ≥ c.attMtu - 1)
    {handles : List ℕ} (hfits : ∀ b ∈ db.attributes, b.readFunc.isSome → b.reads.id.toNat +
      (readMultipleReads env { c with db } (c.attMtu - 1 - rspData.length)
        (handle :: handles)).count b.handle < 2 ^ 32) :
    ∀ b ∈ (db.afterRead a).attributes, b.readFunc.isSome → b.reads.id.toNat +
      (readMultipleReads env { c with db := db.afterRead a }
        (c.attMtu - 1 - (appendValue c rspData a).length) handles).count b.handle < 2 ^ 32 := by
  rcases mem_of_gattDbGetAttribute hget with ⟨ha, hhandle⟩
  have hlen : (appendValue c rspData a).length = rspData.length +
      min (c.attMtu - rspData.length - 1) (c.readValue a).length := by
    rw [appendValue, List.length_append, List.length_take]
  -- The value fits with room to spare, so the reads go on in the same room.
  have hroom : (c.readValue a).length < c.attMtu - 1 - rspData.length := by
    rw [ge_iff_le, Nat.not_le] at hfull
    omega
  have hrest : c.attMtu - 1 - (appendValue c rspData a).length
      = c.attMtu - 1 - rspData.length - (c.readValue a).length := by
    omega
  rw [readMultipleReads] at hfits
  simp only [hget] at hfits
  rw [if_pos ⟨hperm, hroom⟩] at hfits
  rw [hrest, readMultipleReads_congr hsame]
  exact fits_afterRead hhandle ha hfits

theorem readMultipleGo_quiet (hlayout : c.db.mapAttributes .blank = layout) {db : GattDb}
    (hidle : db.Idle) (hsame : db.mapAttributes .unread = c.db.mapAttributes .unread)
    {handle : ℕ} {a : Attribute} (hget : gattDbGetAttribute db handle = some a)
    (rspData : List UInt8) (handles : List ℕ)
    (hfits : ∀ b ∈ db.attributes, b.readFunc.isSome → b.reads.id.toNat +
      (readMultipleReads env { c with db } (c.attMtu - 1 - rspData.length)
        (handle :: handles)).count b.handle < 2 ^ 32) :
    Quiet c (readMultipleGo env { c with db } rspData a handles) := by
  -- Induction on the handles that are left; each read uses up one of those counted.
  induction handles generalizing db handle a rspData with
  | nil =>
      rcases first_read hlayout hidle hsame hget hfits with ⟨hfit, hidle', hsame'⟩
      have ha := (mem_of_gattDbGetAttribute hget).1
      rw [readMultipleGo, readMultipleCompleteCb_eq (hidle a ha).1 hfit]
      split_ifs
      · exact ⟨plain_errorRsp, _, hidle', hsame', rfl⟩
      · exact ⟨plain_send (by decide), _, hidle', hsame', rfl⟩
  | cons next handles ih =>
      rcases first_read hlayout hidle hsame hget hfits with ⟨hfit, hidle', hsame'⟩
      have ha := (mem_of_gattDbGetAttribute hget).1
      rw [readMultipleGo, readMultipleCompleteCb_eq (hidle a ha).1 hfit]
      by_cases hperm : checkPermissions env { c with db } a readMask = 0
      · rw [if_neg (not_not_intro hperm)]
        simp only
        split_ifs with hfull
        · exact ⟨plain_send (by decide), _, hidle', hsame', rfl⟩
        rcases hnext : gattDbGetAttribute (db.afterRead a) next with _ | b
        · exact ⟨plain_errorRsp, _, hidle', hsame', rfl⟩
        · exact ih hidle' hsame' hnext (appendValue c rspData a)
            (fits_next hget hperm (hsame'.trans hsame.symm) hfull hfits)
      · rw [if_pos hperm]
        exact ⟨plain_errorRsp, _, hidle', hsame', rfl⟩

theorem readMultipleCb_quiet (hlayout : c.db.mapAttributes .blank = layout) (hidle : c.db.Idle)
    (opcode : ℕ) {pdu : List UInt8}
    (hfits : 4 ≤ pdu.length → ∀ b ∈ c.db.attributes, b.readFunc.isSome → b.reads.id.toNat +
      (readMultipleReads env c (c.attMtu - 1) (getHandles pdu)).count b.handle < 2 ^ 32) :
    Quiet c (readMultipleCb env c opcode pdu) := by
  unfold readMultipleCb
  split_ifs with hlen
  · exact quiet_of_plain hidle plain_errorRsp
  have hfits' := hfits (Nat.le_of_not_lt hlen)
  rcases hhandles : getHandles pdu with _ | ⟨handle, handles⟩
  · exact quiet_of_plain hidle fun e he => absurd he List.not_mem_nil
  · rw [hhandles] at hfits'
    rcases hget : gattDbGetAttribute c.db handle with _ | a
    · simp only [hget]
      exact quiet_of_plain hidle plain_errorRsp
    · simp only [hget]
      exact readMultipleGo_quiet hlayout hidle rfl hget [] handles hfits'

end ReadMultiple

end Wallclock
