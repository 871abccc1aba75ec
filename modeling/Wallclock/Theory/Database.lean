import Mathlib.Data.List.Nodup
import Wallclock.Core.GattServer

/-!
# What Stays the Same in the Database

Requests change three things about an attribute: its stored value and its two
queues of operations. Everything else, and so everything the handlers branch
on before they touch an attribute, is as `populate_db` left it. This is one
equation: the database with the changing parts blanked out is `layout`.

A change to one attribute is `setAttribute`. Looking an attribute up afterwards
is looking it up before and changing the result, and blanking out the changed
part undoes the change (`mapAttributes_setAttribute`), as handles are unique.

An operation on an attribute is completed by its callback unless its
identifier wraps to zero. `read_completes` and `write_completes` say what an
access does that does not wrap; the other handlers' lemmas rest on these two.

## Main definitions

* `Attribute.blank`: An attribute without the parts that requests change.
* `Attribute.unread`: An attribute without its queue of reads.
* `layout`: The blank database.
* `GattDb.Idle`: No operation is pending on any attribute.
* `Attribute.ReadFits`, `Attribute.WriteFits`: One more access does not wrap.
* `Connection.readValue`: The value a read at offset zero gets.
* `Connection.readAt`: What a read at an offset passes on.
* `GattDb.afterRead`: The database after a read that does not wrap.

## Theorems

* `attributes_mapAttributes`, `mapAttributes_mapAttributes`,
  `mapAttributes_congr`, `gattDbGetAttribute_mapAttributes`: Changing every
  attribute.
* `mem_of_gattDbGetAttribute`: What a lookup finds.
* `mem_setAttribute`, `gattDbGetAttribute_setAttribute`: The attributes after
  a change to one.
* `mapAttributes_setAttribute`: A change that blanking out hides.
* `exists_of_mapAttributes_eq`, `mapAttributes_eq_of_eq`,
  `gattDbGetAttribute_of_eq`: Databases that are equal but for hidden parts.
* `blank_store`, `reads_store`, `writes_store`: What storing a value keeps.
* `populateDb_layout`: `populate_db` produces the layout.
* `nodup_layout`, `eq_of_handle_eq`: Handles are unique.
* `blank_mem_layout`: An attribute, up to the hidden parts.
* `hidden_setAttribute`, `blank_setAttribute`: Changes to hidden parts.
* `gattDbGetAttribute_layout`: A lookup, up to the hidden parts.
* `writeData_iff`: The command callback belongs to one handle.
* `gattDbGetAttribute_writeData`: The value with that handle may be written.
* `push_result`: An operation that does not wrap is completed.
* `readAt_zero`, `read_completes`: A read that does not wrap.
* `Idle.setAttribute`, `Idle.afterRead`: Nothing becomes pending.
* `unread_afterRead`: A read changes the queue of reads only.
* `write_stored`, `write_completes`: The two kinds of write.
-/

namespace Wallclock

namespace GattDb

variable {f g : Attribute → Attribute}

theorem attributes_mapAttributes (db : GattDb) (f : Attribute → Attribute) :
    (db.mapAttributes f).attributes = db.attributes.map f := by
  unfold attributes mapAttributes
  rw [List.flatMap_map, List.map_flatMap]
  rfl

theorem mapAttributes_mapAttributes (db : GattDb) (f g : Attribute → Attribute) :
    (db.mapAttributes f).mapAttributes g = db.mapAttributes fun a => g (f a) := by
  simp only [mapAttributes, List.map_map, Function.comp_def]

theorem mapAttributes_congr {db : GattDb} (h : ∀ a ∈ db.attributes, f a = g a) :
    db.mapAttributes f = db.mapAttributes g := by
  unfold mapAttributes
  congr 1
  apply List.map_congr_left
  intro s hs
  have hmem : ∀ a ∈ s.attributes, f a = g a := fun a ha =>
    h a (List.mem_flatMap.mpr ⟨s, hs, ha⟩)
  -- The declaration of the service, and its other attributes.
  congr 1
  · exact hmem _ List.mem_cons_self
  · exact List.map_congr_left fun a ha => hmem a (List.mem_cons_of_mem _ ha)

/-- A lookup after changing every attribute, where the handles are kept. -/
theorem gattDbGetAttribute_mapAttributes (hf : ∀ a, (f a).handle = a.handle) (db : GattDb)
    (handle : ℕ) :
    gattDbGetAttribute (db.mapAttributes f) handle = (gattDbGetAttribute db handle).map f := by
  unfold gattDbGetAttribute gattDbGetService
  by_cases hzero : handle = 0
  · simp only [hzero, if_true, Option.bind_eq_bind, Option.bind_none, Option.map_none]
  · simp only [if_neg hzero, mapAttributes, List.find?_map, Function.comp_def, Service.endHandle,
      hf, Option.bind_eq_bind]
    -- The service is the same one, with its attributes changed.
    rw [Option.bind_map, Option.map_bind]
    congr 1
    funext s
    have hmap : ∀ t : Service, t.attributes.map f = f t.declaration :: t.rest.map f := fun t => rfl
    rw [Function.comp_apply, Function.comp_apply, Service.attributes, ← hmap, List.find?_map]
    simp only [Function.comp_def, hf]

theorem mem_of_gattDbGetAttribute {db : GattDb} {handle : ℕ} {a : Attribute}
    (h : gattDbGetAttribute db handle = some a) : a ∈ db.attributes ∧ a.handle = handle := by
  unfold gattDbGetAttribute gattDbGetService at h
  by_cases hzero : handle = 0
  · simp only [hzero, if_true, Option.bind_eq_bind, Option.bind_none, reduceCtorEq] at h
  · rw [if_neg hzero, Option.bind_eq_bind, Option.bind_eq_some_iff] at h
    rcases h with ⟨s, hs, ha⟩
    refine ⟨List.mem_flatMap.mpr ⟨s, List.mem_of_find?_eq_some hs,
      List.mem_of_find?_eq_some ha⟩, ?_⟩
    have hfound := List.find?_some ha
    exact of_decide_eq_true hfound

theorem mem_setAttribute {db : GattDb} {a b : Attribute} (h : b ∈ (db.setAttribute a).attributes) :
    b = a ∨ b ∈ db.attributes ∧ b.handle ≠ a.handle := by
  rw [setAttribute, attributes_mapAttributes, List.mem_map] at h
  rcases h with ⟨c, hc, hb⟩
  by_cases hh : c.handle = a.handle
  · rw [if_pos hh] at hb
    exact Or.inl hb.symm
  · rw [if_neg hh] at hb
    rw [← hb]
    exact Or.inr ⟨hc, hh⟩

theorem gattDbGetAttribute_setAttribute (db : GattDb) (a : Attribute) (handle : ℕ) :
    gattDbGetAttribute (db.setAttribute a) handle =
      (gattDbGetAttribute db handle).map fun b => if b.handle = a.handle then a else b := by
  refine gattDbGetAttribute_mapAttributes (fun b => ?_) db handle
  by_cases hh : b.handle = a.handle
  · rw [if_pos hh, hh]
  · rw [if_neg hh]

/-- A change to one attribute is hidden by a function that does not see it. -/
theorem mapAttributes_setAttribute {db : GattDb} {a : Attribute}
    (h : ∀ b ∈ db.attributes, b.handle = a.handle → f a = f b) :
    (db.setAttribute a).mapAttributes f = db.mapAttributes f := by
  rw [setAttribute, mapAttributes_mapAttributes]
  refine mapAttributes_congr fun b hb => ?_
  by_cases hh : b.handle = a.handle
  · rw [if_pos hh, h b hb hh]
  · rw [if_neg hh]

/-- An attribute of one database and the one it corresponds to in another. -/
theorem exists_of_mapAttributes_eq {db db' : GattDb} {a : Attribute}
    (h : db'.mapAttributes f = db.mapAttributes f) (ha : a ∈ db.attributes) :
    ∃ b ∈ db'.attributes, f a = f b := by
  have hmem : f a ∈ (db'.mapAttributes f).attributes := by
    rw [h, attributes_mapAttributes]
    exact List.mem_map_of_mem ha
  rw [attributes_mapAttributes, List.mem_map] at hmem
  rcases hmem with ⟨b, hb, heq⟩
  exact ⟨b, hb, heq.symm⟩

/-- Databases that are equal to a function are equal to one that sees less. -/
theorem mapAttributes_eq_of_eq {db db' : GattDb}
    (h : db'.mapAttributes f = db.mapAttributes f) (hgf : ∀ a, g (f a) = g a) :
    db'.mapAttributes g = db.mapAttributes g := by
  have hless : ∀ d : GattDb, d.mapAttributes g = (d.mapAttributes f).mapAttributes g := by
    intro d
    rw [mapAttributes_mapAttributes]
    exact mapAttributes_congr fun a _ => (hgf a).symm
  rw [hless, h, ← hless]

/-- A lookup in databases that are equal to a function. -/
theorem gattDbGetAttribute_of_eq {db db' : GattDb}
    (h : db'.mapAttributes f = db.mapAttributes f) (hf : ∀ a, (f a).handle = a.handle)
    (handle : ℕ) :
    (gattDbGetAttribute db' handle).map f = (gattDbGetAttribute db handle).map f := by
  rw [← gattDbGetAttribute_mapAttributes hf, h, gattDbGetAttribute_mapAttributes hf]

/-- No operation is pending on any attribute. -/
def Idle (db : GattDb) : Prop :=
  ∀ a ∈ db.attributes, a.reads.queue = [] ∧ a.writes.queue = []

theorem Idle.setAttribute {db : GattDb} (h : db.Idle) {a : Attribute} (hr : a.reads.queue = [])
    (hw : a.writes.queue = []) : (db.setAttribute a).Idle := by
  intro b hb
  rcases mem_setAttribute hb with rfl | ⟨hmem, _⟩
  · exact ⟨hr, hw⟩
  · exact h b hmem

end GattDb

namespace Attribute

def blank (a : Attribute) : Attribute := { a with value := [], reads := .empty, writes := .empty }

def unread (a : Attribute) : Attribute := { a with reads := .empty }

/-- One more read does not wrap the identifier. -/
def ReadFits (a : Attribute) : Prop := a.readFunc.isSome → a.reads.id.toNat + 1 < 2 ^ 32

/-- One more write does not wrap the identifier. -/
def WriteFits (a : Attribute) : Prop := a.writeFunc.isSome → a.writes.id.toNat + 1 < 2 ^ 32

theorem blank_store (a : Attribute) (heap : ℕ → UInt8) (offset : ℕ) (value : List UInt8) :
    (a.store heap offset value).blank = a.blank := by
  simp only [store]
  split_ifs <;> rfl

theorem reads_store (a : Attribute) (heap : ℕ → UInt8) (offset : ℕ) (value : List UInt8) :
    (a.store heap offset value).reads = a.reads := by
  simp only [store]
  split_ifs <;> rfl

theorem writes_store (a : Attribute) (heap : ℕ → UInt8) (offset : ℕ) (value : List UInt8) :
    (a.store heap offset value).writes = a.writes := by
  simp only [store]
  split_ifs <;> rfl

end Attribute

open GattDb

/-- The database as `populate_db` leaves it, blanked out. -/
def layout : GattDb :=
  match populateDb ⟨0, false, 0, 0, false⟩ .new with
  | none => .new
  | some (_, db) => db.mapAttributes .blank

theorem populateDb_layout :
    ∃ db, populateDb ⟨0, false, 0, 0, false⟩ .new = some (⟨10, false, 14, 18, false⟩, db) ∧
      db.mapAttributes .blank = layout ∧
      ∀ a ∈ db.attributes, a.reads = .empty ∧ a.writes = .empty := by
  have hsome : (populateDb ⟨0, false, 0, 0, false⟩ .new).map (·.1)
      = some ⟨10, false, 14, 18, false⟩ := by decide
  have hempty : ∀ x ∈ populateDb ⟨0, false, 0, 0, false⟩ .new,
      ∀ a ∈ x.2.attributes, a.reads = .empty ∧ a.writes = .empty := by decide
  rcases hp : populateDb ⟨0, false, 0, 0, false⟩ .new with _ | ⟨server, db⟩
  · rw [hp] at hsome
    exact absurd hsome (by simp only [Option.map_none, reduceCtorEq, not_false_eq_true])
  · rw [hp, Option.map_some, Option.some.injEq] at hsome
    refine ⟨db, by rw [← hsome], ?_, hempty _ (by rw [hp]; rfl)⟩
    rw [layout, hp]

/-- The handles of the layout are unique. -/
theorem nodup_layout : (layout.attributes.map Attribute.handle).Nodup := by decide

section Layout

variable {db : GattDb} {a b : Attribute}

theorem eq_of_handle_eq (h : db.mapAttributes .blank = layout) (ha : a ∈ db.attributes)
    (hb : b ∈ db.attributes) (hh : a.handle = b.handle) : a = b := by
  have hnodup : (db.attributes.map Attribute.handle).Nodup := by
    have hmap : layout.attributes.map Attribute.handle = db.attributes.map Attribute.handle := by
      rw [← h, attributes_mapAttributes, List.map_map]
      rfl
    rw [← hmap]
    exact nodup_layout
  exact List.inj_on_of_nodup_map hnodup ha hb hh

theorem blank_mem_layout (h : db.mapAttributes .blank = layout) (ha : a ∈ db.attributes) :
    a.blank ∈ layout.attributes := by
  rw [← h, attributes_mapAttributes]
  exact List.mem_map_of_mem ha

/-- A change to the parts of an attribute that a function hides. -/
theorem hidden_setAttribute (f : Attribute → Attribute) (hf : ∀ a, (f a).handle = a.handle)
    (h : db.mapAttributes .blank = layout) (ha : b ∈ db.attributes) (hab : f a = f b) :
    (db.setAttribute a).mapAttributes f = db.mapAttributes f := by
  refine mapAttributes_setAttribute fun c hc hh => ?_
  have hhandle : b.handle = a.handle := by
    rw [← hf b, ← hab, hf a]
  have hbc : b = c := eq_of_handle_eq h ha hc (hhandle.trans hh.symm)
  rw [hab, hbc]

/-- A change to the parts of an attribute that requests change. -/
theorem blank_setAttribute (h : db.mapAttributes .blank = layout) (ha : b ∈ db.attributes)
    (hab : a.blank = b.blank) : (db.setAttribute a).mapAttributes .blank = layout :=
  (hidden_setAttribute .blank (fun _ => rfl) h ha hab).trans h

theorem gattDbGetAttribute_layout (h : db.mapAttributes .blank = layout) (handle : ℕ) :
    (gattDbGetAttribute db handle).map .blank = gattDbGetAttribute layout handle := by
  have hkept : ∀ a : Attribute, a.blank.handle = a.handle := fun _ => rfl
  rw [← h, gattDbGetAttribute_mapAttributes hkept]

/-- Only the WRITE_DATA value has the command callback. -/
theorem writeData_iff (h : db.mapAttributes .blank = layout) (ha : a ∈ db.attributes) :
    a.writeFunc = some .clockWriteDataWriteCb ↔ a.handle = 18 := by
  have hall : ∀ b ∈ layout.attributes,
      b.writeFunc = some .clockWriteDataWriteCb ↔ b.handle = 18 := by decide
  exact hall a.blank (blank_mem_layout h ha)

/-- The WRITE_DATA value exists and may be written. -/
theorem gattDbGetAttribute_writeData (h : db.mapAttributes .blank = layout) :
    ∃ a, gattDbGetAttribute db 18 = some a ∧ a.permissions = btAttPermWrite := by
  have hlayout :
      (gattDbGetAttribute layout 18).map Attribute.permissions = some btAttPermWrite := by
    decide
  rw [← gattDbGetAttribute_layout h, Option.map_map, Option.map_eq_some_iff] at hlayout
  exact hlayout

end Layout

/-- An operation that begins with an empty queue and does not wrap is found
    again when it is answered. -/
theorem push_result {p : Pending} (hq : p.queue = []) (hid : p.id.toNat + 1 < 2 ^ 32) :
    p.push.result p.push.id = (⟨p.id + 1, []⟩, true) := by
  have hnat : (p.id + 1).toNat = p.id.toNat + 1 := by
    rw [BitVec.toNat_add]
    exact Nat.mod_eq_of_lt hid
  have hne : p.id + 1 ≠ 0 := by
    intro h
    rw [h] at hnat
    exact absurd (hnat.symm.trans rfl) (Nat.succ_ne_zero _)
  simp only [Pending.result, Pending.push, if_neg hne, hq, List.nil_append, List.mem_singleton,
    if_true, List.erase_cons_head]

/-- The value a read at offset zero gets. -/
def Connection.readValue (c : Connection) (a : Attribute) : List UInt8 :=
  match a.readFunc with
  | some readFunc => readFunc.call c.server 0
  | none => a.value

/-- What a read of an attribute at an offset passes to its completion
    callback. -/
def Connection.readAt (c : Connection) (a : Attribute) (offset : ℕ) : ℕ × List UInt8 :=
  match a.readFunc with
  | some readFunc => (0, readFunc.call c.server offset)
  | none => if offset > a.value.length then (btAttErrorInvalidOffset, [])
      else (0, a.value.drop offset)

/-- The database after a read that does not wrap. -/
def GattDb.afterRead (db : GattDb) (a : Attribute) : GattDb :=
  if a.readFunc.isSome then db.setAttribute { a with reads := ⟨a.reads.id + 1, []⟩ } else db

section Access

variable {c : Connection} {a : Attribute}

/-- At offset zero it makes no difference where the value is kept. -/
theorem readAt_zero (c : Connection) (a : Attribute) : c.readAt a 0 = (0, c.readValue a) := by
  unfold Connection.readAt Connection.readValue
  rcases a.readFunc with _ | readFunc
  · simp only [gt_iff_lt, Nat.not_lt_zero, if_false, List.drop_zero]
  · rfl

/-- A read that does not wrap is completed. -/
theorem read_completes (offset : ℕ) (hq : a.reads.queue = []) (hfits : a.ReadFits) :
    gattDbAttributeRead c a offset
      = ({ c with db := c.db.afterRead a }, some (c.readAt a offset)) := by
  unfold gattDbAttributeRead GattDb.afterRead Connection.readAt
  rcases hf : a.readFunc with _ | readFunc
  · simp only [Option.isSome_none, Bool.false_eq_true, if_false]
    split_ifs <;> rfl
  · have hresult := push_result hq (hfits (by rw [hf]; rfl))
    simp only [hresult, Option.isSome_some, if_true]

theorem GattDb.Idle.afterRead {db : GattDb} (h : db.Idle) (hw : a.writes.queue = []) :
    (db.afterRead a).Idle := by
  unfold GattDb.afterRead
  split_ifs
  · exact h.setAttribute rfl hw
  · exact h

theorem unread_afterRead {db : GattDb} {b : Attribute} (h : db.mapAttributes .blank = layout)
    (hb : b ∈ db.attributes) (hab : a.unread = b.unread) :
    (db.afterRead a).mapAttributes .unread = db.mapAttributes .unread := by
  unfold GattDb.afterRead
  split_ifs
  · exact hidden_setAttribute .unread (fun _ => rfl) h hb hab
  · rfl

/-- A write to a value the database stores succeeds. -/
theorem write_stored {env : Env} {offset : ℕ} {value : Option (List UInt8)}
    (hf : a.writeFunc = none) :
    gattDbAttributeWrite env c a offset value =
      ([], some ({ c with
        db := c.db.setAttribute (a.store (env.heap c.prepQueue.length) offset (value.getD [])) },
        some 0)) := by
  unfold gattDbAttributeWrite
  rw [hf]

/-- A write that does not wrap is completed with the callback's error code,
    unless the process exits in the callback. -/
theorem write_completes {env : Env} {offset : ℕ} {value : Option (List UInt8)}
    {writeFunc : WriteFunc} (hf : a.writeFunc = some writeFunc) (hq : a.writes.queue = [])
    (hfits : a.WriteFits) :
    gattDbAttributeWrite env c a offset value =
      ((writeFunc.call env c offset value).1,
        (writeFunc.call env c offset value).2.map fun (c, ecode) =>
          ({ c with db := c.db.setAttribute { a with writes := ⟨a.writes.id + 1, []⟩ } },
            some ecode)) := by
  have hresult := push_result hq (hfits (by rw [hf]; rfl))
  unfold gattDbAttributeWrite
  simp only [hf, hresult, if_true]
  rcases writeFunc.call env c offset value with ⟨events, _ | ⟨c', ecode⟩⟩
  · rfl
  · rfl

end Access

end Wallclock
