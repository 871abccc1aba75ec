import Wallclock.Theory.PrepareQueue

/-!
# Values the Server Owns

Which values clients can change.

Most attributes without a write callback may only be read, and `populate_db`
gives them their values. The READ_DATA value has the notify property alone,
but its permissions allow writes, and as it has no write callback the database
stores what is written: directly, by command, or prepared and then executed.

`handleNotify_keeps` goes through every handler, without a condition on the
identifiers or the security level; the one on prepared values keeps the heap
intact. A PDU that does not store bytes in the
READ_DATA value leaves a database that differs in its queues of operations
only, and a prepare queue in which every entry is for that value, since only
writes that the permissions allow are prepared and callbacks refuse a NULL
value. `ownValues_reaches` carries this over a run.

## Main definitions

* `Attribute.resting`: An attribute without its queues.
* `StoresReadData`: The PDU stores bytes in the READ_DATA value.
* `OwnValues`: The attributes without a write callback have their values.
* `SameValues`: Databases that differ in queues only.
* `Keeps`: What a handler that stores nothing leaves.
* `Owned`: The invariant of a run in which nothing is stored.
* `Exchange.readDataWrite`: A PDU that stores a byte.

## Theorems

* `blank_of_resting`, `resting_setAttribute`: Databases that differ in queues
  only.
* `SameValues.layout`: They have the same layout.
* `gattDbAttributeRead_same`, `call_db`, `gattDbAttributeWrite_same`: Access
  to an attribute.
* `handle_of_writable`: The one stored value that may be written.
* `Keeps.of_queue`, `Keeps.refl`, `Keeps.trans`: Handlers one after another.
* `exchangeMtuCb_keeps`, `gattDbAttributeRead_keeps`, `handleReadReq_keeps`,
  `processReadByType_keeps`, `readByTypeCb_keeps`,
  `readMultipleCompleteCb_keeps`, `readMultipleGo_keeps`,
  `readMultipleCb_keeps`: The handlers that read.
* `writeCb_keeps`: A Write Request or a Write Command.
* `prepWriteCb_keeps`: A Prepare Write Request.
* `removeAllPrepData_keeps`, `execNextPrepWrite_keeps`, `execWriteCb_keeps`: An
  Execute Write Request.
* `handleNotify_keeps`: Any PDU.
* `owned_reaches`: Any run.
* `gattDbGetAttribute_of_mem`: Every attribute is found under its handle.
* `ownValues_of_owned`, `ownValues_reaches`: The values stay the same.
* `connect_readData`: The READ_DATA value of a new connection.
* `ownValues_ignored`: A run that keeps the values.
* `readData_overwritten`: A run that does not.
-/

namespace Wallclock

open ByteCodec GattDb StepMachine

/-- An attribute without its queues of operations. -/
def Attribute.resting (a : Attribute) : Attribute := { a with reads := .empty, writes := .empty }

/-- The PDU stores bytes in the READ_DATA value, whose handle is 14: a write to
    it with a value, or an Execute Write Request while such a write is
    prepared that the check of reliable sessions lets through. -/
def StoresReadData (c : Connection) (i : Exchange) : Prop :=
  (i.opcode = .writeReq ∨ i.opcode = .writeCmd) ∧ 2 < i.pdu.length ∧ getLe16 i.pdu = 14 ∧
      0 ≤ i.security ∧ c.pendingWriteOp = none ∨
    i.opcode = .execWriteReq ∧ i.pdu = [0x01] ∧
      (∃ p ∈ c.prepQueue, p.handle = 14 ∧ p.value ≠ []) ∧
      (1 < c.prepQueue.length → ∀ p ∈ c.prepQueue, p.reliableSupported)

/-- The attributes without a write callback have the values they had, and so
    does what a read of them gets. -/
def OwnValues (c m : Connection) : Prop :=
  ∀ a ∈ c.db.attributes, a.writeFunc = none → ∃ b, gattDbGetAttribute m.db a.handle = some b ∧
    b.value = a.value ∧ m.readValue b = c.readValue a

section Resting

variable {db db' : GattDb} {a b : Attribute}

theorem blank_of_resting (h : db'.mapAttributes .resting = db.mapAttributes .resting) :
    db'.mapAttributes .blank = db.mapAttributes .blank :=
  mapAttributes_eq_of_eq h fun _ => rfl

/-- A change to the queues of an attribute. -/
theorem resting_setAttribute (h : db.mapAttributes .blank = layout) (ha : b ∈ db.attributes)
    (hab : a.resting = b.resting) :
    (db.setAttribute a).mapAttributes .resting = db.mapAttributes .resting :=
  hidden_setAttribute .resting (fun _ => rfl) h ha hab

end Resting

/-- Two connections whose databases differ in queues only. -/
def SameValues (c c' : Connection) : Prop :=
  c'.db.mapAttributes .resting = c.db.mapAttributes .resting

section Handlers

variable {env : Env} {c d : Connection} {a : Attribute}

theorem SameValues.layout (h : SameValues c d) (hlayout : c.db.mapAttributes .blank = layout) :
    d.db.mapAttributes .blank = layout :=
  (blank_of_resting h).trans hlayout

/-- A read changes queues only, also of an attribute found earlier. -/
theorem gattDbAttributeRead_same (hlayout : c.db.mapAttributes .blank = layout) {b : Attribute}
    (hb : b ∈ c.db.attributes) (hab : a.resting = b.resting) (offset : ℕ) :
    SameValues c (gattDbAttributeRead c a offset).1 ∧
      (gattDbAttributeRead c a offset).1.prepQueue = c.prepQueue := by
  unfold gattDbAttributeRead
  split
  · exact ⟨resting_setAttribute hlayout hb hab, rfl⟩
  · split_ifs
    · exact ⟨rfl, rfl⟩
    · exact ⟨rfl, rfl⟩

/-- A write callback changes neither the database nor the prepare queue. -/
theorem call_db {f : WriteFunc} {offset : ℕ} {value : Option (List UInt8)} {err : ℕ}
    (h : (f.call env c offset value).2 = some (d, err)) :
    d.db = c.db ∧ d.prepQueue = c.prepQueue ∧ (value = none → err ≠ 0) := by
  rcases call_next h with ⟨heq, _, hnull⟩
  rw [heq]
  exact ⟨rfl, rfl, hnull⟩

/-- A write keeps every value, unless the database stores it and it is not
    empty. A NULL value is refused by every callback. -/
theorem gattDbAttributeWrite_same (hlayout : c.db.mapAttributes .blank = layout)
    (ha : a ∈ c.db.attributes) {offset : ℕ} {value : Option (List UInt8)}
    (hkeeps : a.writeFunc = none → value.getD [] = []) {events : List Event} {r : Option ℕ}
    (h : gattDbAttributeWrite env c a offset value = (events, some (d, r))) :
    SameValues c d ∧ d.prepQueue = c.prepQueue ∧
      (value = none → a.writeFunc.isSome → r ≠ some 0) := by
  unfold gattDbAttributeWrite at h
  -- The write callback answers, or the database stores the value.
  split at h
  · next f hf =>
    rcases hcall : f.call env c offset value with ⟨called, _ | ⟨d', ecode⟩⟩
    · simp only [hcall, Prod.mk.injEq, reduceCtorEq, and_false] at h
    · simp only [hcall, Prod.mk.injEq, Option.some.injEq] at h
      rcases call_db (congrArg Prod.snd hcall) with ⟨hdb, hqueue, hnull⟩
      rw [← h.2.1, ← h.2.2]
      refine ⟨?_, hqueue, fun hvalue _ => ?_⟩
      · show (d'.db.setAttribute _).mapAttributes .resting = c.db.mapAttributes .resting
        rw [hdb]
        exact resting_setAttribute hlayout ha rfl
      · split_ifs
        · exact fun heq => hnull hvalue (Option.some.inj heq)
        · exact (Option.some_ne_none 0).symm
  · next hf =>
    have hstore : a.store (env.heap c.prepQueue.length) offset [] = a := by
      simp only [Attribute.store, List.length_nil, if_true]
    simp only [hkeeps hf, hstore, Prod.mk.injEq, Option.some.injEq] at h
    rw [← h.2.1]
    refine ⟨resting_setAttribute hlayout ha rfl, rfl, fun _ hsome => ?_⟩
    rw [hf] at hsome
    exact absurd hsome (by simp only [Option.isSome_none, Bool.false_eq_true, not_false_eq_true])

/-- Among the values that the database stores, clients may write one. -/
theorem handle_of_writable (hlayout : c.db.mapAttributes .blank = layout)
    (ha : a ∈ c.db.attributes) (hf : a.writeFunc = none)
    (hcheck : checkPermissions env c a writeMask = 0) : a.handle = 14 ∧ 0 ≤ env.security := by
  have hall : ∀ b ∈ layout.attributes, b.writeFunc = none →
      b.handle = 14 ∧ b.permissions = btAttPermRead ||| btAttPermWrite ∨
        b.permissions = btAttPermRead := by decide
  -- A write to the READ_DATA value is refused where the security level is an error, and one to
  -- any other stored value always.
  rcases hall a.blank (blank_mem_layout hlayout ha) hf with ⟨hhandle, hperm⟩ | hperm
  · refine ⟨hhandle, ?_⟩
    by_contra hsec
    have hperm' : a.permissions = btAttPermRead ||| btAttPermWrite := hperm
    have hmask : (btAttPermRead ||| btAttPermWrite) &&& writeMask ≠ 0 := by decide
    have hread : writeMask &&& btAttPermRead = 0 := by decide
    have hwrite : (btAttPermRead ||| btAttPermWrite) &&& btAttPermWrite ≠ 0 := by decide
    have hunlikely : btAttErrorUnlikely ≠ 0 := by decide
    simp only [checkPermissions, hperm', hread, hwrite, ne_eq, not_true_eq_false, false_and,
      and_false, if_false, if_neg hmask, if_pos (not_le.mp hsec)] at hcheck
    exact hunlikely hcheck
  · have hperm' : a.permissions = btAttPermRead := hperm
    have hread : writeMask &&& btAttPermRead = 0 := by decide
    have hmask : btAttPermRead ≠ 0 ∧ writeMask &&& btAttPermWrite ≠ 0 ∧
        btAttPermRead &&& btAttPermWrite = 0 := by decide
    have hdenied : btAttErrorWriteNotPermitted ≠ 0 := by decide
    simp only [checkPermissions, hperm', hread, ne_eq, not_true_eq_false, false_and, and_false,
      if_false] at hcheck
    rw [if_pos hmask] at hcheck
    exact absurd hcheck hdenied

/-- What a handler that stores nothing leaves: the values, and a prepare queue
    for the READ_DATA value only. -/
structure Keeps (c d : Connection) : Prop where
  same : SameValues c d
  prepared : ∀ p ∈ d.prepQueue, p ∈ c.prepQueue ∨ p.handle = 14

theorem Keeps.of_queue (hsame : SameValues c d) (hqueue : d.prepQueue = c.prepQueue) :
    Keeps c d := by
  refine ⟨hsame, fun p hp => ?_⟩
  rw [hqueue] at hp
  exact Or.inl hp

theorem Keeps.refl (c : Connection) : Keeps c c := .of_queue rfl rfl

theorem Keeps.trans {e : Connection} (h : Keeps c d) (h' : Keeps d e) : Keeps c e := by
  refine ⟨Eq.trans h'.same h.same, fun p hp => ?_⟩
  rcases h'.prepared p hp with hp | hp
  · exact h.prepared p hp
  · exact Or.inr hp

theorem exchangeMtuCb_keeps (c : Connection) (opcode : ℕ) (pdu : List UInt8) :
    Keeps c (exchangeMtuCb c opcode pdu).2 := by
  unfold exchangeMtuCb
  split_ifs
  · exact .refl c
  · exact .of_queue rfl rfl

theorem gattDbAttributeRead_keeps (hlayout : c.db.mapAttributes .blank = layout) {b : Attribute}
    (hb : b ∈ c.db.attributes) (hab : a.resting = b.resting) (offset : ℕ) :
    Keeps c (gattDbAttributeRead c a offset).1 :=
  .of_queue (gattDbAttributeRead_same hlayout hb hab offset).1
    (gattDbAttributeRead_same hlayout hb hab offset).2

theorem handleReadReq_keeps (hlayout : c.db.mapAttributes .blank = layout)
    (opcode handle offset : ℕ) : Keeps c (handleReadReq env c opcode handle offset).2 := by
  unfold handleReadReq
  rcases hget : gattDbGetAttribute c.db handle with _ | a
  · exact .refl c
  simp only
  split_ifs
  · exact .refl c
  · exact .refl c
  · have ha := (mem_of_gattDbGetAttribute hget).1
    have hkeeps := gattDbAttributeRead_keeps (c := { c with pendingReadOp := some opcode })
      hlayout ha rfl offset
    have hpend : Keeps c { c with pendingReadOp := some opcode } := .of_queue rfl rfl
    -- The read is answered later, or completed at once.
    rcases hread : gattDbAttributeRead { c with pendingReadOp := some opcode } a offset
      with ⟨d, _ | ⟨err, value⟩⟩
    · rw [hread] at hkeeps
      exact hpend.trans hkeeps
    · rw [hread] at hkeeps
      exact (hpend.trans hkeeps).trans (.of_queue rfl rfl)

theorem processReadByType_keeps (hlayout : c.db.mapAttributes .blank = layout)
    {q : List Attribute} (hq : ∀ a ∈ q, ∃ b ∈ c.db.attributes, a.resting = b.resting)
    (op : AsyncReadOp) : Keeps c (processReadByType env c op q).2 := by
  -- Induction on the queue, which holds attributes as they were when the request began.
  induction q generalizing c op with
  | nil => exact .of_queue rfl rfl
  | cons a q ih =>
      rcases hq a List.mem_cons_self with ⟨b, hb, hab⟩
      have hkeeps := gattDbAttributeRead_keeps hlayout hb hab 0
      unfold processReadByType
      simp only
      split_ifs
      · exact .of_queue rfl rfl
      · exact .of_queue rfl rfl
      rcases hread : gattDbAttributeRead c a 0 with ⟨d, _ | ⟨err, value⟩⟩
      · rw [hread] at hkeeps
        exact hkeeps
      · rw [hread] at hkeeps
        simp only
        split_ifs
        · exact hkeeps.trans (.of_queue rfl rfl)
        · -- The attributes that are left differ from those of the database in queues only.
          refine hkeeps.trans (ih (hkeeps.same.layout hlayout) (fun a' ha' => ?_) _)
          rcases hq a' (List.mem_cons_of_mem a ha') with ⟨b', hb', hab'⟩
          rcases exists_of_mapAttributes_eq hkeeps.same hb' with ⟨b'', hb'', hbb⟩
          exact ⟨b'', hb'', hab'.trans hbb⟩

theorem readByTypeCb_keeps (hlayout : c.db.mapAttributes .blank = layout) (opcode : ℕ)
    (pdu : List UInt8) : Keeps c (readByTypeCb env c opcode pdu).2 := by
  simp only [readByTypeCb]
  split_ifs
  · exact .refl c
  · exact .refl c
  · exact .refl c
  · exact .refl c
  · exact .refl c
  · have hpend : Keeps c { c with pendingReadOp := some opcode } := .of_queue rfl rfl
    refine hpend.trans ?_
    exact processReadByType_keeps (c := { c with pendingReadOp := some opcode }) hlayout
      (fun a ha => ⟨a, mem_of_gattDbReadByType ha, rfl⟩) _

theorem readMultipleCompleteCb_keeps (env : Env) (hlayout : c.db.mapAttributes .blank = layout)
    (ha : a ∈ c.db.attributes) (rspData : List UInt8) :
    Keeps c (readMultipleCompleteCb env c rspData a).1 := by
  have hkeeps := gattDbAttributeRead_keeps hlayout ha rfl 0
  unfold readMultipleCompleteCb
  rcases hread : gattDbAttributeRead c a 0 with ⟨d, _ | ⟨err, value⟩⟩
  · rw [hread] at hkeeps
    exact hkeeps
  · rw [hread] at hkeeps
    exact hkeeps

theorem readMultipleGo_keeps (hlayout : c.db.mapAttributes .blank = layout)
    (ha : a ∈ c.db.attributes) (rspData : List UInt8) (handles : List ℕ) :
    Keeps c (readMultipleGo env c rspData a handles).2 := by
  -- Induction on the handles. Each attribute is looked up in the database that is left.
  induction handles generalizing c a rspData with
  | nil =>
      have hkeeps := readMultipleCompleteCb_keeps env hlayout ha rspData
      unfold readMultipleGo
      rcases hread : readMultipleCompleteCb env c rspData a with ⟨d, events | rsp⟩
      · rw [hread] at hkeeps
        exact hkeeps
      · rw [hread] at hkeeps
        exact hkeeps
  | cons handle handles ih =>
      have hkeeps := readMultipleCompleteCb_keeps env hlayout ha rspData
      unfold readMultipleGo
      rcases hread : readMultipleCompleteCb env c rspData a with ⟨d, events | rsp⟩
      · rw [hread] at hkeeps
        exact hkeeps
      · rw [hread] at hkeeps
        simp only
        split_ifs
        · exact hkeeps
        · rcases hget : gattDbGetAttribute d.db handle with _ | b
          · exact hkeeps
          · exact hkeeps.trans (ih (hkeeps.same.layout hlayout)
              (mem_of_gattDbGetAttribute hget).1 rsp)

theorem readMultipleCb_keeps (hlayout : c.db.mapAttributes .blank = layout) (opcode : ℕ)
    (pdu : List UInt8) : Keeps c (readMultipleCb env c opcode pdu).2 := by
  unfold readMultipleCb
  split_ifs
  · exact .refl c
  · rcases getHandles pdu with _ | ⟨handle, handles⟩
    · exact .refl c
    · simp only
      rcases hget : gattDbGetAttribute c.db handle with _ | a
      · exact .refl c
      · exact readMultipleGo_keeps hlayout (mem_of_gattDbGetAttribute hget).1 [] handles

/-- A write keeps the values unless it stores bytes in the READ_DATA value. -/
theorem writeCb_keeps (hlayout : c.db.mapAttributes .blank = layout) (opcode : ℕ)
    {pdu : List UInt8} (hstores : 2 < pdu.length → getLe16 pdu = 14 → 0 ≤ env.security →
      c.pendingWriteOp ≠ none) (hnext : (writeCb env c opcode pdu).2 = some d) : Keeps c d := by
  by_cases hto : ∃ a, WritesTo env c pdu a
  · rcases hto with ⟨a, hto⟩
    rcases mem_of_gattDbGetAttribute hto.get with ⟨ha, hhandle⟩
    rw [writeCb_eq hto] at hnext
    -- The value that is stored, if it is stored, is empty.
    have hempty : a.writeFunc = none → (some (pdu.drop 2)).getD [] = [] := by
      intro hf
      rcases handle_of_writable hlayout ha hf hto.check with ⟨h14, hsec⟩
      rw [Option.getD_some, List.drop_eq_nil_iff]
      by_contra hlong
      exact hstores (not_le.mp hlong) (hhandle.symm.trans h14) hsec hto.idle
    have hpend : Keeps c { c with pendingWriteOp := some opcode } := .of_queue rfl rfl
    rcases hwrite : gattDbAttributeWrite env { c with pendingWriteOp := some opcode } a 0
        (some (pdu.drop 2)) with ⟨events, _ | ⟨e, r⟩⟩
    · rw [hwrite] at hnext
      exact absurd hnext.symm (Option.some_ne_none d)
    · have hkeeps := gattDbAttributeWrite_same (c := { c with pendingWriteOp := some opcode })
        hlayout ha hempty hwrite
      have he : Keeps c e := hpend.trans (.of_queue hkeeps.1 hkeeps.2.1)
      rw [hwrite] at hnext
      cases r with
      | none => exact Option.some.inj hnext ▸ he
      | some err => exact Option.some.inj hnext ▸ he.trans (.of_queue rfl rfl)
  · rcases writeCb_refused hto opcode with ⟨handle, ecode, heq⟩
    rw [heq] at hnext
    exact Option.some.inj hnext ▸ .refl c

/-- A Prepare Write Request stores nothing, and prepares nothing but writes to
    the READ_DATA value. -/
theorem prepWriteCb_keeps (hlayout : c.db.mapAttributes .blank = layout) (hlive : c.Live)
    (opcode : ℕ) {pdu : List UInt8} (hsize : 1 + pdu.length < 2 ^ 16)
    (hprep : 4 ≤ pdu.length → c.prepQueue.length < c.maxPrepQueueLen →
      ∀ p, c.prepQueue.getLast? = some p → p.handle = getLe16 pdu →
        getLe16 (pdu.drop 2) = p.value.length + p.offset →
          p.value.length + (pdu.length - 4) < 2 ^ 16)
    (hnext : (prepWriteCb env c opcode pdu).2 = some d) : Keeps c d := by
  have hsame : some c = some d → Keeps c d := fun heq => Option.some.inj heq ▸ .refl c
  unfold prepWriteCb at hnext
  split_ifs at hnext with hlen hfull
  · exact hsame hnext
  · exact hsame hnext
  rw [not_lt] at hlen
  rw [ge_iff_le, not_le] at hfull
  simp only at hnext
  rcases hget : gattDbGetAttribute c.db (getLe16 pdu) with _ | a
  · rw [hget] at hnext
    exact hsame hnext
  rcases mem_of_gattDbGetAttribute hget with ⟨ha, hhandle⟩
  rw [hget] at hnext
  by_cases hcheck : checkPermissions env c a writeMask = 0
  · simp only [hcheck, ne_eq, not_true_eq_false, if_false] at hnext
    rcases hwrite : gattDbAttributeWrite env c a (getLe16 (pdu.drop 2)) none
      with ⟨events, _ | ⟨e, r⟩⟩
    · rw [hwrite] at hnext
      exact absurd hnext.symm (Option.some_ne_none d)
    rcases gattDbAttributeWrite_same hlayout ha (fun _ => rfl) hwrite with ⟨hvalues, hqueue, hnull⟩
    have he : Keeps c e := .of_queue hvalues hqueue
    rw [hwrite] at hnext
    cases r with
    | none => exact Option.some.inj hnext ▸ he
    | some err =>
        simp only [prepWriteCompleteCb] at hnext
        split_ifs at hnext with herr
        · exact Option.some.inj hnext ▸ he
        rw [ne_eq, not_not] at herr
        -- The attribute has no write callback, as that would have refused.
        have hf : a.writeFunc = none := by
          rcases hf : a.writeFunc with _ | f
          · rfl
          · exact absurd (congrArg some herr) (hnull rfl (by rw [hf]; rfl))
        have h14 : getLe16 pdu = 14 :=
          hhandle.symm.trans (handle_of_writable hlayout ha hf hcheck).1
        have hlive' : e.Live := fun p hp => hlive p (hqueue ▸ hp)
        have hdrop : (pdu.drop 4).length = pdu.length - 4 := List.length_drop
        rcases storePrepData_spec hlive' (getLe16 (pdu.drop 2)) (pdu.drop 4) (by omega)
          (by rw [hqueue, hdrop]; exact hprep hlen hfull) with ⟨queue, hstore, hentries⟩
        rw [hstore] at hnext
        exact Option.some.inj hnext ▸ he.trans ⟨rfl, fun p hp =>
          (hentries p hp).2.imp_right fun hnew => hnew.trans h14⟩
  · simp only [ne_eq, hcheck, not_false_eq_true, if_true] at hnext
    exact hsame hnext

theorem removeAllPrepData_keeps {answer : List Event}
    (hnext : (removeAllPrepData c answer).2 = some d) : Keeps c d := by
  unfold removeAllPrepData at hnext
  split_ifs at hnext
  exact Option.some.inj hnext ▸ ⟨rfl, fun p hp => absurd hp List.not_mem_nil⟩

/-- The writes of an Execute Write Request keep the values if they are empty. -/
theorem execNextPrepWrite_keeps (hlayout : c.db.mapAttributes .blank = layout) (ehandle : ℕ)
    {queue : List PrepWriteData} (hqueue : ∀ p ∈ queue, p.value = [] ∧ p.handle = 14)
    (hnext : (execNextPrepWrite env c ehandle queue).2 = some d) : Keeps c d := by
  -- Induction on the queue. An empty value is passed as NULL, which stores nothing.
  induction queue generalizing c ehandle with
  | nil =>
      rw [execNextPrepWrite] at hnext
      rw [← Option.some.inj hnext]
      exact ⟨rfl, fun p hp => absurd hp List.not_mem_nil⟩
  | cons p queue ih =>
      have hrest : ∀ q ∈ queue, q.value = [] ∧ q.handle = 14 := fun q hq =>
        hqueue q (List.mem_cons_of_mem p hq)
      have hpop : Keeps c { c with prepQueue := queue } :=
        ⟨rfl, fun q hq => Or.inr (hrest q hq).2⟩
      have hvalue := (hqueue p List.mem_cons_self).1
      unfold execNextPrepWrite at hnext
      simp only [hvalue, List.length_nil, if_true] at hnext
      rcases hget : gattDbGetAttribute c.db p.handle with _ | a
      · rw [hget] at hnext
        exact hpop.trans (removeAllPrepData_keeps hnext)
      have ha := (mem_of_gattDbGetAttribute hget).1
      simp only [hget] at hnext
      split_ifs at hnext
      rcases hwrite : gattDbAttributeWrite env { c with prepQueue := queue } a p.offset none
        with ⟨events, _ | ⟨e, r⟩⟩
      · rw [hwrite] at hnext
        exact absurd hnext.symm (Option.some_ne_none d)
      have hsame := gattDbAttributeWrite_same (c := { c with prepQueue := queue }) hlayout ha
        (fun _ => rfl) hwrite
      have he : Keeps c e := hpop.trans (.of_queue hsame.1 hsame.2.1)
      rw [hwrite] at hnext
      cases r with
      | none => exact Option.some.inj hnext ▸ he
      | some err =>
          simp only at hnext
          split_ifs at hnext
          · exact he.trans (removeAllPrepData_keeps hnext)
          · exact he.trans (ih (he.same.layout hlayout) a.handle hrest hnext)

/-- An Execute Write Request keeps the values unless it gets to store bytes. -/
theorem execWriteCb_keeps (hlayout : c.db.mapAttributes .blank = layout)
    (hprepared : ∀ p ∈ c.prepQueue, p.handle = 14) (opcode : ℕ) {pdu : List UInt8}
    (hstores : pdu = [0x01] → (1 < c.prepQueue.length → ∀ p ∈ c.prepQueue, p.reliableSupported) →
      ∀ p ∈ c.prepQueue, p.value = [])
    (hnext : (execWriteCb env c opcode pdu).2 = some d) : Keeps c d := by
  have hexec : pdu = [0x01] →
      (1 < c.prepQueue.length → ∀ p ∈ c.prepQueue, p.reliableSupported) →
      (execNextPrepWrite env c 0 c.prepQueue).2 = some d → Keeps c d := by
    intro hpdu hreliable hnext
    exact execNextPrepWrite_keeps hlayout 0
      (fun p hp => ⟨hstores hpdu hreliable p hp, hprepared p hp⟩) hnext
  -- The PDU is the flag that commits the queue.
  have hcommitted : ¬pdu.length ≠ 1 → pdu.headD 0 = 0x01 → pdu = [0x01] := by
    intro hlen hcommit
    rw [ne_eq, not_not, List.length_eq_one_iff] at hlen
    rcases hlen with ⟨flags, hflags⟩
    rw [hflags, List.headD_cons] at hcommit
    rw [hflags, hcommit]
  unfold execWriteCb at hnext
  simp only at hnext
  split_ifs at hnext with hlen hcancel hcommit hmany
  · exact removeAllPrepData_keeps hnext
  · exact removeAllPrepData_keeps hnext
  · have hpdu := hcommitted hlen hcommit
    split at hnext
    · exact removeAllPrepData_keeps hnext
    · next hfind =>
      refine hexec hpdu (fun _ p hp => ?_) hnext
      have hfound := List.find?_eq_none.mp hfind p hp
      simp only [Bool.not_eq_true, decide_eq_true_eq] at hfound
      exact Bool.eq_true_of_not_eq_false hfound
  · exact hexec (hcommitted hlen hcommit) (fun hlong => absurd hlong hmany) hnext
  · exact removeAllPrepData_keeps hnext

/-- Any PDU that does not store bytes in the READ_DATA value keeps the values. -/
theorem handleNotify_keeps {i : Exchange} (hlayout : c.db.mapAttributes .blank = layout)
    (hlive : c.Live) (hprepared : ∀ p ∈ c.prepQueue, p.handle = 14) (hfits : PrepareFits c i)
    (hstores : ¬StoresReadData c i)
    (hnext : (handleNotify c i).2 = some d) : Keeps c d := by
  have hwrite : i.opcode = .writeReq ∨ i.opcode = .writeCmd → 2 < i.pdu.length →
      getLe16 i.pdu = 14 → 0 ≤ i.security → c.pendingWriteOp ≠ none :=
    fun hop hlen h14 hsec hnone => hstores (Or.inl ⟨hop, hlen, h14, hsec, hnone⟩)
  have hsame : some c = some d → Keeps c d := fun heq => Option.some.inj heq ▸ .refl c
  unfold handleNotify at hnext
  rcases hop : i.opcode
  case mtuReq =>
    simp only [hop, Prod.map, id, Option.some.injEq] at hnext
    exact hnext ▸ exchangeMtuCb_keeps c btAttOpMtuReq i.pdu
  case readByGrpTypeReq =>
    simp only [hop] at hnext
    exact hsame hnext
  case readByTypeReq =>
    simp only [hop, Prod.map, id, Option.some.injEq] at hnext
    exact hnext ▸ readByTypeCb_keeps hlayout btAttOpReadByTypeReq i.pdu
  case findInfoReq =>
    simp only [hop] at hnext
    exact hsame hnext
  case findByTypeReq =>
    simp only [hop] at hnext
    exact hsame hnext
  case writeReq =>
    simp only [hop] at hnext
    exact writeCb_keeps hlayout btAttOpWriteReq (hwrite (Or.inl hop)) hnext
  case writeCmd =>
    simp only [hop] at hnext
    exact writeCb_keeps hlayout btAttOpWriteCmd (hwrite (Or.inr hop)) hnext
  case readReq =>
    simp only [hop, Prod.map, id, Option.some.injEq] at hnext
    rw [← hnext]
    unfold readCb
    split_ifs
    · exact .refl c
    · exact handleReadReq_keeps hlayout _ _ _
  case readBlobReq =>
    simp only [hop, Prod.map, id, Option.some.injEq] at hnext
    rw [← hnext]
    unfold readBlobCb
    split_ifs
    · exact .refl c
    · exact handleReadReq_keeps hlayout _ _ _
  case readMultReq =>
    simp only [hop, Prod.map, id, Option.some.injEq] at hnext
    exact hnext ▸ readMultipleCb_keeps hlayout btAttOpReadMultReq i.pdu
  case prepWriteReq =>
    simp only [hop] at hnext
    exact prepWriteCb_keeps hlayout hlive btAttOpPrepWriteReq i.size
      (fun hlen hfull => hfits ⟨hop, hlen, hfull⟩) hnext
  case execWriteReq =>
    simp only [hop] at hnext
    refine execWriteCb_keeps hlayout hprepared btAttOpExecWriteReq (fun hpdu hreliable p hp => ?_)
      hnext
    by_contra hvalue
    exact hstores (Or.inr ⟨hop, hpdu, ⟨p, hp, hprepared p hp, hvalue⟩, hreliable⟩)

end Handlers

/-- What holds of every state of a run that stores nothing in the READ_DATA
    value. -/
structure Owned (c m : Connection) : Prop where
  same : SameValues c m
  layout : m.db.mapAttributes .blank = layout
  live : m.Live
  prepared : ∀ p ∈ m.prepQueue, p.handle = 14

section Runs

variable {c m : Connection} {is : List Exchange}

theorem owned_reaches {globals : Globals} {mtu : ℕ} (hconnect : connect globals mtu = some c)
    (hsteps : gattMachine.Steps (fun d i => PrepareFits d i ∧ ¬StoresReadData d i) c is)
    (hr : gattMachine.Reaches c is m) : Owned c m := by
  have hready := ready_connect hconnect
  -- A new connection has an empty prepare queue.
  have hstart : Owned c c := by
    refine ⟨rfl, hready.layout, hready.live, fun p hp => ?_⟩
    rw [connect, Option.bind_eq_bind, Option.bind_eq_some_iff] at hconnect
    rcases hconnect with ⟨x, _, hc⟩
    rw [← Option.some.inj hc] at hp
    exact absurd hp List.not_mem_nil
  have hstep : ∀ d i d', Owned c d → PrepareFits d i ∧ ¬StoresReadData d i →
      (gattMachine.step d i).2 = some d' → Owned c d' := by
    intro d i d' hd hi hnext
    have hkeeps := handleNotify_keeps hd.layout hd.live hd.prepared hi.1 hi.2 hnext
    refine ⟨Eq.trans hkeeps.same hd.same, hkeeps.same.layout hd.layout,
      (handleNotify_intact hd.live hi.1).live d' hnext, fun p hp => ?_⟩
    rcases hkeeps.prepared p hp with hp | hp
    · exact hd.prepared p hp
    · exact hp
  rw [← List.append_nil is] at hsteps
  exact (reaches_invariant_steps (Owned c) _ hstep hsteps hstart hr).1

/-- Every attribute is found under its handle. -/
theorem gattDbGetAttribute_of_mem {db : GattDb} (hlayout : db.mapAttributes .blank = layout)
    {a : Attribute} (ha : a ∈ db.attributes) : gattDbGetAttribute db a.handle = some a := by
  have hall : ∀ b ∈ layout.attributes, gattDbGetAttribute layout b.handle = some b := by decide
  have hget := hall a.blank (blank_mem_layout hlayout ha)
  rw [← gattDbGetAttribute_layout hlayout, Option.map_eq_some_iff] at hget
  rcases hget with ⟨b, hb, _⟩
  have hb' := mem_of_gattDbGetAttribute hb
  rw [eq_of_handle_eq hlayout ha hb'.1 hb'.2.symm]
  exact hb'.2 ▸ hb

/-- Equal databases up to queues have equal values. -/
theorem ownValues_of_owned (hc : c.db.mapAttributes .blank = layout) (h : Owned c m) :
    OwnValues c m := by
  intro a ha hf
  -- The attribute is found again, with its queues changed.
  have hlookup : (gattDbGetAttribute m.db a.handle).map Attribute.resting
      = some a.resting := by
    rw [gattDbGetAttribute_of_eq h.same fun _ => rfl, gattDbGetAttribute_of_mem hc ha,
      Option.map_some]
  rw [Option.map_eq_some_iff] at hlookup
  rcases hlookup with ⟨b, hb, hab⟩
  have hvalue : b.resting.value = a.resting.value := congrArg Attribute.value hab
  have hread : b.resting.readFunc = a.resting.readFunc := congrArg Attribute.readFunc hab
  simp only [Attribute.resting] at hvalue hread
  refine ⟨b, hb, hvalue, ?_⟩
  -- The only read callback without a write callback returns nothing.
  have hall : ∀ x ∈ layout.attributes, x.writeFunc = none →
      x.readFunc = none ∨ x.readFunc = some .gattServiceChangedCb := by decide
  have hcases : a.readFunc = none ∨ a.readFunc = some .gattServiceChangedCb :=
    hall a.blank (blank_mem_layout hc ha) hf
  unfold Connection.readValue
  rw [hread]
  rcases hcases with hnone | hsome
  · rw [hnone]
    exact hvalue
  · rw [hsome]
    rfl

end Runs

/-- In every run of PDUs none of which stores bytes in the READ_DATA value or
    makes a prepared value too long, the attributes without a write callback
    keep the values `populate_db` gave them, in every state, and the heap is
    not misused. -/
theorem ownValues_reaches (globals : Globals) (mtu : ℕ) (c m : Connection) (is : List Exchange)
    (hconnect : connect globals mtu = some c)
    (hsteps : gattMachine.Steps (fun d i => PrepareFits d i ∧ ¬StoresReadData d i) c is)
    (hr : gattMachine.Reaches c is m) :
    OwnValues c m ∧ .corrupt ∉ (gattMachine.run c is).1 :=
  ⟨ownValues_of_owned (ready_connect hconnect).layout (owned_reaches hconnect hsteps hr),
    intact_run (live_connect hconnect) (hsteps.mono fun _ _ h => h.1)⟩

/-- A Write Command with one byte for the READ_DATA value. -/
def Exchange.readDataWrite : Exchange :=
  { Env.sample with opcode := .writeCmd, pdu := [14, 0, 0xAA], size := by decide }

/-- The READ_DATA value starts empty, and clients may write it. -/
theorem connect_readData : ∃ c a, connect (Globals.init 0) 0 = some c ∧
    gattDbGetAttribute c.db 14 = some a ∧ a.value = [] ∧ a.writeFunc = none ∧
    a.permissions = btAttPermRead ||| btAttPermWrite := by
  have hdata : (populateDb ⟨0, false, 0, 0, false⟩ .new).map (fun x =>
      (gattDbGetAttribute x.2 14).map fun a => (a.value, a.writeFunc, a.permissions))
      = some (some ([], none, btAttPermRead ||| btAttPermWrite)) := by decide
  rcases populateDb_layout with ⟨db, hdb, _⟩
  rw [hdb, Option.map_some, Option.some.injEq, Option.map_eq_some_iff] at hdata
  rcases hdata with ⟨a, hget, ha⟩
  rw [Prod.mk.injEq, Prod.mk.injEq] at ha
  refine ⟨btGattServerNew ⟨10, false, 14, 18, false⟩ db (Globals.init 0) 0 0, a, ?_, hget, ha.1,
    ha.2.1, ha.2.2⟩
  rw [connect, hdb]
  rfl

/-- A command that is ignored stores nothing. -/
theorem ownValues_ignored : ∃ c m, connect (Globals.init 0) 0 = some c ∧
    gattMachine.Reaches c [.ignored] m ∧ OwnValues c m ∧
      .corrupt ∉ (gattMachine.run c [.ignored]).1 := by
  rcases connect_sample with ⟨c, hconnect, _⟩
  have hready := ready_connect hconnect
  rcases gattDbGetAttribute_writeData hready.layout with ⟨a, hget, _⟩
  have hr : gattMachine.Reaches c [.ignored] _ := reaches_cons_iff.mpr
    ⟨_, congrArg Prod.snd (handleNotify_ignored hready hget), reaches_nil_iff.mpr rfl⟩
  refine ⟨c, _, hconnect, hr, ownValues_reaches (Globals.init 0) 0 c _ [.ignored] hconnect
    ⟨⟨fun hprep => absurd hprep.1 (by decide), ?_⟩, fun _ _ => trivial⟩ hr⟩
  rintro (⟨_, _, h14, _⟩ | ⟨hop, _⟩)
  · exact absurd h14 (by decide)
  · cases hop

/-- A Write Command of one byte for the READ_DATA value stores it. -/
theorem readData_overwritten : ∃ c m, connect (Globals.init 0) 0 = some c ∧
    gattMachine.Reaches c [.readDataWrite] m ∧ ¬OwnValues c m := by
  rcases connect_readData with ⟨c, a, hconnect, hget, hvalue, hf, hperm⟩
  have hready := ready_connect hconnect
  rcases mem_of_gattDbGetAttribute hget with ⟨ha, hhandle⟩
  have hbusy : c.pendingWriteOp.isSome = false := by
    rw [hready.noWrite]
    rfl
  have hcheck : checkPermissions Env.sample c a writeMask = 0 :=
    checkPermissions_open (by decide) hperm (by decide) (by decide) (by decide)
  have hlen : ¬Exchange.readDataWrite.pdu.length < 2 := by decide
  have hle : getLe16 Exchange.readDataWrite.pdu = 14 := by decide
  have hdrop : Exchange.readDataWrite.pdu.drop 2 = [0xAA] := rfl
  -- The permissions allow the write, and no callback refuses it.
  have hstep : ∃ m, (gattMachine.step c .readDataWrite).2 = some m ∧
      m.db = c.db.setAttribute (a.store (fun _ => 0) 0 [0xAA]) := by
    simp only [gattMachine, handleNotify, Exchange.readDataWrite] at hlen hle hdrop ⊢
    simp only [writeCb, hlen, hle, hdrop, hget, hcheck, ne_eq, not_true_eq_false, if_false, hbusy,
      Bool.false_eq_true, write_stored hf]
    exact ⟨_, rfl, rfl⟩
  rcases hstep with ⟨m, hm, hdb⟩
  refine ⟨c, m, hconnect, reaches_cons_iff.mpr ⟨m, hm, reaches_nil_iff.mpr rfl⟩, fun h => ?_⟩
  rcases h a ha hf with ⟨b, hb, hbvalue, _⟩
  have hstored : (a.store (fun _ => 0) 0 [0xAA]).value = [0xAA] := by
    simp only [Attribute.store, hvalue]
    rfl
  have hsame : (a.store (fun _ => 0) 0 [0xAA]).blank.handle = a.blank.handle :=
    congrArg Attribute.handle (a.blank_store (fun _ => 0) 0 [0xAA])
  simp only [Attribute.blank] at hsame
  rw [hdb, gattDbGetAttribute_setAttribute, hhandle, hget, Option.map_some, hsame, if_pos rfl,
    Option.some.injEq] at hb
  rw [← hb, hstored, hvalue] at hbvalue
  exact absurd hbvalue (by decide)

end Wallclock
