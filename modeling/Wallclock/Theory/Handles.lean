import Mathlib.Data.List.GetD
import Wallclock.Core.GattDbEdit
import Wallclock.Library.Ranges

/-!
# Handles in Order

A lookup by handle, a discovery that asks for the handles behind the last one,
and the indices into the slots of a service all rely on one invariant of the
database: the ranges of the services neither overlap nor change places, and the
handles of a service rise within its range.

The functions of the database do not keep it by themselves. `find_insert_loc`
looks for a service in which the new range begins or ends, and so accepts a
range around a whole service. The functions that insert an attribute at a given
handle compare it with that of the declaration only, not with the end of the
range or the attributes that are there. `DbOp.Fits` is what they leave to their
caller, and it is exact: a call that succeeds keeps the invariant if and only
if it fits (`GattDb.Sound.apply_iff`).

Calls that leave the choice of handles to the database always fit. Then the
handles of a service have no gap, and each service begins behind those that were
ever added. The price is the end of the handles: the next one is zero once the
last one is used up or everything has been removed, and no service begins at
zero.

## Main definitions

* `Service.lastAttribute`: The attribute that was added last.
* `Service.Sound`, `GattDb.Sound`: The invariant.
* `GattDb.Clear`: A range does not lie around a service.
* `DbOp.Fits`, `DbOp.Proper`: A call that succeeds keeps the invariant.
* `Service.Dense`, `GattDb.Dense`: The handles of a service have no gap.
* `DbOp.Adds`: The choice of handles is left to the database.
* `GattDb.Cleared`: Nothing can be added to the database.

## Theorems

* `attributes_ne_nil`, `lastAttribute_mem`, `getHandleAtIndex_last`,
  `getAttributeIndex_last`, `getAttributeIndex_room`: The last attribute, and the
  index behind it.
* `Sound.le_last`, `Sound.declaration_le`: Handles between the first and the last.
* `Sound.append_iff`: Attributes go behind the last one.
* `Sound.characteristic_iff`, `Sound.descriptor_iff`, `Sound.included_iff`: What
  the three insertions need.
* `GattDb.Sound.new`, `GattDb.Dense.new`: A new database.
* `GattDb.Sound.rising`, `GattDb.Sound.get`: Handles rise, and are found.
* `findInsertLoc_after`, `findInsertLoc_mem`, `findInsertLoc_behind`: Where a
  service goes.
* `gattDbInsertService_cases`: What the insertion of a service does.
* `GattDb.Sound.insertService_iff`, `GattDb.Sound.extendService_iff`: What it needs,
  and what an extension needs.
* `GattDb.Sound.sublist`, `GattDb.Sound.map`, `GattDb.Sound.setActive`,
  `GattDb.Sound.clearRange`: Changes that need nothing.
* `GattDb.Sound.eq_of_handle`: A handle begins one service.
* `GattDb.Sound.apply_iff`, `GattDb.Sound.step_iff`, `in_order_iff_proper`: What
  a call needs, and a sequence of calls.
* `Service.Dense.last`, `Service.Dense.sound`, `Service.Dense.last_add_lt`,
  `Service.Dense.append`: Handles without a gap.
* `Service.Dense.characteristic_eq`, `Service.Dense.descriptor_eq`,
  `GattDb.Dense.addService_eq`: The functions of the server are these functions.
* `Service.Dense.characteristic`, `Service.Dense.descriptor`,
  `Service.Dense.included`, `GattDb.Dense.addService`,
  `GattDb.Dense.extendService`, `GattDb.Dense.sublist`, `GattDb.Dense.apply`: Calls
  that leave the choice of handles to the database.
* `reaches_invariant_apply`: Invariants of successful calls.
* `added_in_order`, `added_in_order_battery`: Such calls keep the invariant.
* `GattDb.Cleared.apply`, `no_service_after_clear`, `no_service_after_clear_battery`:
  The end of the handles.
-/

namespace Wallclock

open StepMachine

namespace Service

variable {s : Service}

theorem attributes_ne_nil (s : Service) : s.attributes ≠ [] := List.cons_ne_nil _ _

/-- The last attribute that has been added. -/
def lastAttribute (s : Service) : Attribute := s.attributes.getLast s.attributes_ne_nil

theorem lastAttribute_mem (s : Service) : s.lastAttribute ∈ s.attributes := List.getLast_mem _

theorem getHandleAtIndex_last (s : Service) :
    s.getHandleAtIndex (s.attributes.length - 1) = s.lastAttribute.handle := by
  have hlt : s.attributes.length - 1 < s.attributes.length := by
    rw [attributes, List.length_cons]
    omega
  rw [getHandleAtIndex, List.getD_eq_getElem _ _ hlt, lastAttribute, List.getLast_eq_getElem]

/-- The handles of a service rise, and do not leave its range. -/
structure Sound (s : Service) : Prop where
  room : 1 ≤ s.numHandles
  rising : (s.attributes.map Attribute.handle).Pairwise (· < ·)
  within : ∀ a ∈ s.attributes, a.handle ≤ s.endHandle

/-- No handle exceeds the last one. -/
theorem Sound.le_last (h : s.Sound) : ∀ a ∈ s.attributes, a.handle ≤ s.lastAttribute.handle := by
  intro a ha
  -- All others are in front of the last one, and handles rise.
  have hsplit : s.attributes = s.attributes.dropLast ++ [s.lastAttribute] :=
    (List.dropLast_append_getLast _).symm
  have hrising := h.rising
  rw [hsplit, List.map_append, List.pairwise_append] at hrising
  rw [hsplit] at ha
  rcases List.mem_append.mp ha with hbefore | hlast
  · exact le_of_lt (hrising.2.2 _ (List.mem_map_of_mem hbefore) _ List.mem_cons_self)
  · rw [List.mem_singleton.mp hlast]

/-- The declaration has the first handle. -/
theorem Sound.declaration_le (h : s.Sound) :
    ∀ a ∈ s.attributes, s.declaration.handle ≤ a.handle := by
  intro a ha
  rcases List.mem_cons.mp ha with rfl | hrest
  · exact le_refl _
  · have hrising := h.rising
    rw [attributes, List.map_cons, List.pairwise_cons] at hrising
    exact le_of_lt (hrising.1 _ (List.mem_map_of_mem hrest))

/-- Attributes keep the handles in order exactly if they go behind the last one. -/
theorem Sound.append_iff (h : s.Sound) (new : List Attribute) :
    ({ s with rest := s.rest ++ new } : Service).Sound ↔
      (new.map Attribute.handle).Pairwise (· < ·) ∧
        ∀ a ∈ new, s.lastAttribute.handle < a.handle ∧ a.handle ≤ s.endHandle := by
  have hattributes : ({ s with rest := s.rest ++ new } : Service).attributes =
      s.attributes ++ new := rfl
  constructor
  · intro hsound
    have hrising := hsound.rising
    rw [hattributes, List.map_append, List.pairwise_append] at hrising
    refine ⟨hrising.2.1, fun a ha => ⟨?_, ?_⟩⟩
    · exact hrising.2.2 _ (List.mem_map_of_mem s.lastAttribute_mem) _ (List.mem_map_of_mem ha)
    · exact hsound.within a (hattributes ▸ List.mem_append_right _ ha)
  · rintro ⟨hrising, hafter⟩
    refine ⟨h.room, ?_, fun a ha => ?_⟩
    · rw [hattributes, List.map_append, List.pairwise_append]
      refine ⟨h.rising, hrising, fun x hx y hy => ?_⟩
      rcases List.mem_map.mp hx with ⟨a, ha, rfl⟩
      rcases List.mem_map.mp hy with ⟨b, hb, rfl⟩
      exact (h.le_last a ha).trans_lt (hafter b hb).1
    · rw [hattributes] at ha
      rcases List.mem_append.mp ha with hold | hnew
      · exact h.within a hold
      · exact (hafter a hnew).2

/-- The index that is free is behind the last attribute. -/
theorem getAttributeIndex_last {endOffset i : ℕ} (h : s.getAttributeIndex endOffset = some i) :
    s.getHandleAtIndex (i - 1) = s.lastAttribute.handle := by
  unfold getAttributeIndex at h
  split_ifs at h
  rw [← Option.some.inj h]
  exact s.getHandleAtIndex_last

/-- An index is free only if the service has room for as many attributes. -/
theorem getAttributeIndex_room {endOffset i : ℕ} (h : s.getAttributeIndex endOffset = some i) :
    s.attributes.length < s.numHandles - endOffset := by
  unfold getAttributeIndex at h
  split_ifs at h with hroom
  exact hroom

/-- A characteristic needs two handles behind the last attribute. -/
theorem Sound.characteristic_iff (h : s.Sound) (hstop : s.endHandle ≤ 65535)
    {handle permissions properties result : ℕ} {uuid : Uuid} {readFunc : Option ReadFunc}
    {writeFunc : Option WriteFunc} {t : Service}
    (heq : serviceInsertCharacteristic s handle uuid permissions properties readFunc writeFunc =
      some (t, result)) :
    ∃ new, t = { s with rest := s.rest ++ new } ∧
      (t.Sound ↔ s.lastAttribute.handle + 1 <
          (if handle = 0 then s.lastAttribute.handle + 2 else handle) ∧
        (if handle = 0 then s.lastAttribute.handle + 2 else handle) ≤ s.endHandle) := by
  have hlast := h.within _ s.lastAttribute_mem
  unfold serviceInsertCharacteristic at heq
  split at heq
  · cases heq
  split at heq
  · cases heq
  split at heq
  · cases heq
  · case h_2 i hindex =>
      rw [getAttributeIndex_last hindex] at heq
      refine ⟨_, (Prod.mk.inj (Option.some.inj heq)).1.symm, ?_⟩
      rw [← (Prod.mk.inj (Option.some.inj heq)).1, h.append_iff]
      generalize hvalue :
        (if handle = 0 then (s.lastAttribute.handle + 2) % 2 ^ 16 else handle) = value
      simp only [List.map_cons, List.map_nil, List.pairwise_cons, forall_eq,
        List.not_mem_nil, IsEmpty.forall_iff, implies_true, List.Pairwise.nil, and_true,
        List.mem_cons, or_false, forall_eq_or_imp, Attribute.new, handleBefore]
      -- A handle that wraps around is in front of the one before it.
      split_ifs at hvalue ⊢ <;> omega

/-- A descriptor needs a handle behind the last attribute. -/
theorem Sound.descriptor_iff (h : s.Sound) (hstop : s.endHandle ≤ 65535)
    {handle permissions result : ℕ} {uuid : Uuid} {readFunc : Option ReadFunc}
    {writeFunc : Option WriteFunc} {t : Service}
    (heq : serviceInsertDescriptor s handle uuid permissions readFunc writeFunc =
      some (t, result)) :
    ∃ new, t = { s with rest := s.rest ++ new } ∧
      (t.Sound ↔ s.lastAttribute.handle <
          (if handle = 0 then s.lastAttribute.handle + 1 else handle) ∧
        (if handle = 0 then s.lastAttribute.handle + 1 else handle) ≤ s.endHandle) := by
  have hlast := h.within _ s.lastAttribute_mem
  unfold serviceInsertDescriptor at heq
  split at heq
  · cases heq
  · case h_2 i hindex =>
      split at heq
      · cases heq
      rw [getAttributeIndex_last hindex] at heq
      refine ⟨_, (Prod.mk.inj (Option.some.inj heq)).1.symm, ?_⟩
      rw [← (Prod.mk.inj (Option.some.inj heq)).1, h.append_iff]
      generalize hvalue :
        (if handle = 0 then (s.lastAttribute.handle + 1) % 2 ^ 16 else handle) = value
      simp only [List.map_cons, List.map_nil, List.pairwise_singleton, true_and,
        List.mem_singleton, forall_eq, Attribute.new]
      -- So is a handle that is the last one of all and wraps around to zero.
      split_ifs at hvalue ⊢ <;> omega

/-- An included service takes the handle behind the last attribute. -/
theorem Sound.included_iff (h : s.Sound) (hstop : s.endHandle ≤ 65535) {handle result : ℕ}
    {included t : Service} (heq : serviceInsertIncluded s handle included = some (t, result)) :
    ∃ new, t = { s with rest := s.rest ++ new } ∧
      (t.Sound ↔ s.lastAttribute.handle < s.endHandle) := by
  have hlast := h.within _ s.lastAttribute_mem
  unfold serviceInsertIncluded at heq
  split at heq
  · cases heq
  · case h_2 i hindex =>
      split_ifs at heq
      rw [getAttributeIndex_last hindex] at heq
      refine ⟨_, (Prod.mk.inj (Option.some.inj heq)).1.symm, ?_⟩
      rw [← (Prod.mk.inj (Option.some.inj heq)).1, h.append_iff]
      simp only [List.map_cons, List.map_nil, List.pairwise_singleton, true_and,
        List.mem_singleton, forall_eq, Attribute.new]
      omega

end Service

/-- The services of a database are in order, and so are their attributes. -/
structure GattDb.Sound (db : GattDb) : Prop where
  services : InOrder (fun s : Service => s.declaration.handle) Service.endHandle db.services
  sound : ∀ s ∈ db.services, s.Sound
  start : ∀ s ∈ db.services, 1 ≤ s.declaration.handle
  stop : ∀ s ∈ db.services, s.endHandle ≤ 65535

namespace GattDb.Sound

variable {db : GattDb}

/-- The handles of all attributes rise. -/
theorem rising (h : db.Sound) : (db.attributes.map Attribute.handle).Pairwise (· < ·) := by
  rw [attributes, List.map_flatMap]
  exact h.services.keys (fun s hs => (h.sound s hs).rising) fun s hs k hk => by
    rcases List.mem_map.mp hk with ⟨a, ha, rfl⟩
    exact ⟨(h.sound s hs).declaration_le a ha, (h.sound s hs).within a ha⟩

/-- Every attribute is found by its handle. -/
theorem get (h : db.Sound) {a : Attribute} (ha : a ∈ db.attributes) :
    gattDbGetAttribute db a.handle = some a := by
  rcases List.mem_flatMap.mp ha with ⟨s, hs, hmem⟩
  have hsound := h.sound s hs
  have hpos : a.handle ≠ 0 := by
    have hstart := h.start s hs
    have hle := hsound.declaration_le a hmem
    omega
  have hservice : gattDbGetService db a.handle = some s := by
    rw [gattDbGetService, if_neg hpos]
    exact h.services.find hs (hsound.declaration_le a hmem) (hsound.within a hmem)
  rw [gattDbGetAttribute, hservice]
  -- Within the service each handle is a range of its own.
  have horder : InOrder Attribute.handle Attribute.handle s.attributes :=
    ⟨fun _ _ => le_refl _, List.pairwise_map.mp hsound.rising⟩
  have hfind := horder.find hmem (le_refl _) (le_refl _)
  have hpred : (fun b : Attribute => decide (b.handle = a.handle)) =
      fun b => decide (b.handle ≤ a.handle ∧ a.handle ≤ b.handle) := by
    funext b
    rw [decide_eq_decide]
    omega
  show s.attributes.find? (fun b => b.handle = a.handle) = some a
  rw [hpred]
  exact hfind

end GattDb.Sound

section Insertion

/-- A range goes behind the services before it and before those behind it, unless
    it lies around one. -/
theorem findInsertLoc_after {services : List Service}
    (h : InOrder (fun s : Service => s.declaration.handle) Service.endHandle services)
    {start stop count : ℕ}
    (hclear : ∀ s ∈ services, ¬(start < s.declaration.handle ∧ s.endHandle < stop))
    (hloc : findInsertLoc start stop services = .after count) :
    (∀ s ∈ services.take count, s.endHandle < start) ∧
      ∀ s ∈ services.drop count, stop < s.declaration.handle := by
  induction services generalizing count with
  | nil =>
      rw [List.take_nil, List.drop_nil]
      exact ⟨fun s hs => absurd hs List.not_mem_nil, fun s hs => absurd hs List.not_mem_nil⟩
  | cons s services ih =>
      rcases List.pairwise_cons.mp h.sorted with ⟨hfirst, _⟩
      have hvalid : s.declaration.handle ≤ s.endHandle := h.valid s List.mem_cons_self
      have hswallow := hclear s List.mem_cons_self
      unfold findInsertLoc at hloc
      simp only at hloc
      -- The range begins in this service, ends in it, ends before it, or is behind it.
      split_ifs at hloc with hstart hstop hbefore
      · -- The range ends before this service, so before all that follow.
        cases hloc
        rw [List.take_zero, List.drop_zero]
        refine ⟨fun t ht => absurd ht List.not_mem_nil, fun t ht => ?_⟩
        rcases List.mem_cons.mp ht with rfl | hrest
        · exact hbefore
        · have hst : s.endHandle < t.declaration.handle := hfirst t hrest
          omega
      · split at hloc
        · cases hloc
        · case h_2 n hrest =>
            cases hloc
            have htail := ih (h.sublist (List.sublist_cons_self s services))
              (fun t ht => hclear t (List.mem_cons_of_mem s ht)) hrest
            rw [List.take_succ_cons, List.drop_succ_cons]
            refine ⟨fun t ht => ?_, htail.2⟩
            rcases List.mem_cons.mp ht with rfl | hlater
            · omega
            · exact htail.1 t hlater

theorem findInsertLoc_mem {services : List Service} {start stop : ℕ} {s : Service}
    (hloc : findInsertLoc start stop services = .taken s) : s ∈ services := by
  induction services with
  | nil => cases hloc
  | cons t services ih =>
      unfold findInsertLoc at hloc
      simp only at hloc
      split_ifs at hloc
      · cases hloc
        exact List.mem_cons_self
      · cases hloc
        exact List.mem_cons_self
      · split at hloc
        · case h_1 u hrest =>
            cases hloc
            exact List.mem_cons_of_mem t (ih hrest)
        · cases hloc

/-- No service lies strictly within a range. -/
def GattDb.Clear (db : GattDb) (handle numHandles : ℕ) : Prop :=
  ∀ s ∈ db.services, ¬(handle < s.declaration.handle ∧ s.endHandle < handle + numHandles - 1)

/-- What a successful insertion does: the service is there already, or it goes to
    its place. -/
theorem gattDbInsertService_cases {db db' : GattDb} {handle numHandles result : ℕ} {uuid : Uuid}
    {primary : Bool}
    (heq : gattDbInsertService db handle uuid primary numHandles = some (db', result)) :
    (1 ≤ handle ∧ 1 ≤ numHandles ∧ handle + numHandles - 1 ≤ 65535) ∧
      ((∃ s ∈ db.services, s.declaration.handle = handle ∧ s.numHandles = numHandles ∧
          db' = db) ∨
        ∃ count, findInsertLoc handle (handle + numHandles - 1) db.services = .after count ∧
          db' = ⟨max (handle + numHandles) db.nextHandle % 2 ^ 16, db.services.take count ++
            gattDbServiceCreate uuid handle primary numHandles :: db.services.drop count⟩) := by
  unfold gattDbInsertService at heq
  split at heq
  · cases heq
  split at heq
  · cases heq
  · case isFalse hzero hlen =>
      refine ⟨by omega, ?_⟩
      split at heq
      · case h_1 s hloc =>
          generalize (if primary then gattPrimSvcUuid else gattSndSvcUuid) = type at heq
          simp only at heq
          split_ifs at heq with hsame
          exact Or.inl ⟨s, findInsertLoc_mem hloc, hsame.2.2.2, hsame.2.2.1,
            (Prod.mk.inj (Option.some.inj heq)).1.symm⟩
      · case h_2 count hloc =>
          exact Or.inr ⟨count, hloc, (Prod.mk.inj (Option.some.inj heq)).1.symm⟩

/-- A new service keeps the database in order exactly if it does not lie around
    another one. -/
theorem GattDb.Sound.insertService_iff {db db' : GattDb} (h : db.Sound)
    {handle numHandles result : ℕ} {uuid : Uuid} {primary : Bool}
    (heq : gattDbInsertService db handle uuid primary numHandles = some (db', result)) :
    db'.Sound ↔ db.Clear handle numHandles := by
  rcases gattDbInsertService_cases heq with
    ⟨hroom, ⟨t, ht, hhandle, hnum, rfl⟩ | ⟨count, hloc, rfl⟩⟩
  · -- No other service is in the range of the one that is there.
    refine ⟨fun _ s hs hin => ?_, fun _ => h⟩
    have hvalid : s.declaration.handle ≤ s.endHandle := h.services.valid s hs
    have hstop : t.endHandle = handle + numHandles - 1 := by
      rw [Service.endHandle, hnum, hhandle]
    have hst : s = t := h.services.eq_of_covers hs ht ⟨le_refl _, hvalid⟩ ⟨by omega, by omega⟩
    rw [hst] at hin
    omega
  · let new := gattDbServiceCreate uuid handle primary numHandles
    have hstop : new.endHandle = handle + numHandles - 1 := rfl
    have hmem (s : Service) := mem_take_append_cons_drop (l := db.services) (n := count)
      (a := new) (b := s)
    constructor
    · -- Ranges in order do not lie within each other.
      intro hsound s hs hin
      have hvalid : s.declaration.handle ≤ s.endHandle := h.services.valid s hs
      have hnew := hsound.services.eq_of_covers ((hmem s).mpr (Or.inr hs))
        ((hmem new).mpr (Or.inl rfl)) ⟨le_refl _, hvalid⟩
        ⟨le_of_lt hin.1, by show _ ≤ new.endHandle; omega⟩
      rw [hnew] at hin
      exact absurd hin.1 (lt_irrefl handle)
    · intro hclear
      rcases findInsertLoc_after h.services hclear hloc with ⟨hbefore, hafter⟩
      have hnew : new.Sound := by
        refine ⟨hroom.2.1, List.pairwise_singleton _ _, fun a ha => ?_⟩
        rw [List.mem_singleton.mp ha, hstop]
        show handle ≤ handle + numHandles - 1
        omega
      refine ⟨InOrder.insert ?_ ?_ hbefore hafter, fun s hs => ?_, fun s hs => ?_,
        fun s hs => ?_⟩
      · rw [List.take_append_drop]
        exact h.services
      · show handle ≤ handle + numHandles - 1
        omega
      · rcases (hmem s).mp hs with rfl | hold
        · exact hnew
        · exact h.sound s hold
      · rcases (hmem s).mp hs with rfl | hold
        · show 1 ≤ handle
          omega
        · exact h.start s hold
      · rcases (hmem s).mp hs with rfl | hold
        · rw [hstop]
          omega
        · exact h.stop s hold

end Insertion

section Changes

variable {db db' : GattDb}

theorem GattDb.Sound.sublist (h : db.Sound) {services : List Service} (next : ℕ)
    (hsub : services.Sublist db.services) : (⟨next, services⟩ : GattDb).Sound :=
  ⟨h.services.sublist hsub, fun s hs => h.sound s (hsub.subset hs),
    fun s hs => h.start s (hsub.subset hs), fun s hs => h.stop s (hsub.subset hs)⟩

/-- A change of the services that keeps their ranges. -/
theorem GattDb.Sound.map (h : db.Sound) {f : Service → Service} (next : ℕ)
    (hstart : ∀ s ∈ db.services, (f s).declaration.handle = s.declaration.handle)
    (hstop : ∀ s ∈ db.services, (f s).endHandle = s.endHandle)
    (hsound : ∀ s ∈ db.services, (f s).Sound) : (⟨next, db.services.map f⟩ : GattDb).Sound := by
  refine ⟨h.services.map f hstart hstop, fun s hs => ?_, fun s hs => ?_, fun s hs => ?_⟩
  · rcases List.mem_map.mp hs with ⟨t, ht, rfl⟩
    exact hsound t ht
  · rcases List.mem_map.mp hs with ⟨t, ht, rfl⟩
    rw [hstart t ht]
    exact h.start t ht
  · rcases List.mem_map.mp hs with ⟨t, ht, rfl⟩
    rw [hstop t ht]
    exact h.stop t ht

/-- Only one service begins at a handle. -/
theorem GattDb.Sound.eq_of_handle (h : db.Sound) {s t : Service} (hs : s ∈ db.services)
    (ht : t ∈ db.services) (heq : s.declaration.handle = t.declaration.handle) : s = t := by
  have hvalid (r : Service) (hr : r ∈ db.services) : r.declaration.handle ≤ r.endHandle :=
    h.services.valid r hr
  refine h.services.eq_of_covers hs ht ⟨le_refl _, hvalid s hs⟩ ⟨heq ▸ le_refl _, ?_⟩
  show s.declaration.handle ≤ t.endHandle
  rw [heq]
  exact hvalid t ht

/-- A service that is extended keeps the database in order exactly if it is in
    order itself. -/
theorem GattDb.Sound.extendService_iff (h : db.Sound) {service result : ℕ}
    {f : Service → Option (Service × ℕ)} {Fits : Service → Prop}
    (heq : db.extendService service f = some (db', result))
    (hf : ∀ s ∈ db.services, ∀ t r, s.Sound → s.endHandle ≤ 65535 → f s = some (t, r) →
      ∃ new, t = { s with rest := s.rest ++ new } ∧ (t.Sound ↔ Fits s)) :
    db'.Sound ↔ ∀ s, db.serviceAt service = some s → Fits s := by
  rcases Option.bind_eq_some_iff.mp heq with ⟨old, hold, heq⟩
  rcases Option.bind_eq_some_iff.mp heq with ⟨⟨new, handle⟩, hnew, heq⟩
  rw [← (Prod.mk.inj (Option.some.inj heq)).1]
  have hmem := List.mem_of_find?_eq_some hold
  have hhandle : old.declaration.handle = service := by
    have hfound := List.find?_some hold
    rwa [decide_eq_true_eq] at hfound
  rcases hf old hmem new handle (h.sound old hmem) (h.stop old hmem) hnew with ⟨added, rfl, hiff⟩
  -- The services with the handle are the one that is extended.
  have hsame (s : Service) (hs : s ∈ db.services) (hat : s.declaration.handle = service) :
      s = old := h.eq_of_handle hs hmem (hat.trans hhandle.symm)
  have hall : (∀ s, db.serviceAt service = some s → Fits s) ↔ Fits old :=
    ⟨fun hfits => hfits old hold, fun hfits s hs => by
      rw [GattDb.serviceAt, hold, Option.some.injEq] at hs
      rwa [← hs]⟩
  rw [hall, ← hiff]
  constructor
  · intro hsound
    refine hsound.sound _ (List.mem_map.mpr ⟨old, hmem, ?_⟩)
    rw [if_pos hhandle]
  · intro hsound
    refine h.map db.nextHandle (fun s hs => ?_) (fun s hs => ?_) (fun s hs => ?_)
    · split
      · case isTrue hat => rw [hsame s hs hat]
      · rfl
    · split
      · case isTrue hat =>
          rw [hsame s hs hat]
          rfl
      · rfl
    · split
      · exact hsound
      · exact h.sound s hs

end Changes

/-- Whether a call that succeeds leaves the database in order: a new service does
    not lie around another one, and a new attribute goes behind the last one of
    its service, within the range of the service. -/
def DbOp.Fits (db : GattDb) : DbOp → Prop
  | .addService _ _ numHandles => db.Clear db.nextHandle numHandles
  | .insertService handle _ _ numHandles => db.Clear handle numHandles
  | .characteristic service handle .. => ∀ s, db.serviceAt service = some s →
    s.lastAttribute.handle + 1 <
        (if handle = 0 then s.lastAttribute.handle + 2 else handle) ∧
      (if handle = 0 then s.lastAttribute.handle + 2 else handle) ≤ s.endHandle
  | .descriptor service handle .. => ∀ s, db.serviceAt service = some s →
    s.lastAttribute.handle < (if handle = 0 then s.lastAttribute.handle + 1 else handle) ∧
      (if handle = 0 then s.lastAttribute.handle + 1 else handle) ≤ s.endHandle
  | .included service .. => ∀ s, db.serviceAt service = some s →
    s.lastAttribute.handle < s.endHandle
  | .setActive .. | .removeService _ | .clearRange .. => True

/-- A call that fails, or fits. -/
def DbOp.Proper (db : GattDb) (op : DbOp) : Prop := (db.apply op).isSome → op.Fits db

section Runs

variable {db : GattDb}

theorem GattDb.Sound.new : GattDb.new.Sound :=
  ⟨InOrder.nil, fun _ h => absurd h List.not_mem_nil, fun _ h => absurd h List.not_mem_nil,
    fun _ h => absurd h List.not_mem_nil⟩

/-- Activating a service changes no handle. -/
theorem GattDb.Sound.setActive (h : db.Sound) (service : ℕ) (active : Bool) :
    (gattDbServiceSetActive db service active).Sound := by
  refine h.map db.nextHandle (fun s _ => ?_) (fun s _ => ?_) (fun s hs => ?_)
  · split <;> rfl
  · split <;> rfl
  · split
    · exact ⟨(h.sound s hs).room, (h.sound s hs).rising, (h.sound s hs).within⟩
    · exact h.sound s hs

theorem GattDb.Sound.clearRange (h : db.Sound) {startHandle endHandle : ℕ} {db' : GattDb}
    (heq : gattDbClearRange db startHandle endHandle = some db') : db'.Sound := by
  unfold gattDbClearRange at heq
  split at heq
  · cases heq
  · rw [← Option.some.inj heq]
    refine h.sublist _ ?_
    split
    · exact List.nil_sublist _
    · exact List.filter_sublist

/-- A call that succeeds keeps the database in order exactly if it fits. -/
theorem GattDb.Sound.apply_iff (h : db.Sound) {op : DbOp} {db' : GattDb} {result : ℕ}
    (heq : db.apply op = some (db', result)) : db'.Sound ↔ op.Fits db := by
  cases op with
  | addService uuid primary numHandles => exact h.insertService_iff heq
  | insertService handle uuid primary numHandles => exact h.insertService_iff heq
  | characteristic service handle uuid permissions properties readFunc writeFunc =>
      exact h.extendService_iff heq fun s _ t r hs hstop => hs.characteristic_iff hstop
  | descriptor service handle uuid permissions readFunc writeFunc =>
      exact h.extendService_iff heq fun s _ t r hs hstop => hs.descriptor_iff hstop
  | included service handle other =>
      rcases Option.bind_eq_some_iff.mp heq with ⟨included, _, heq⟩
      exact h.extendService_iff heq fun s _ t r hs hstop => hs.included_iff hstop
  | setActive service active =>
      rw [← (Prod.mk.inj (Option.some.inj heq)).1]
      exact iff_of_true (h.setActive service active) trivial
  | removeService service =>
      rw [← (Prod.mk.inj (Option.some.inj heq)).1]
      exact iff_of_true (h.sublist _ List.filter_sublist) trivial
  | clearRange startHandle endHandle =>
      rcases Option.map_eq_some_iff.mp heq with ⟨cleared, hcleared, heq⟩
      rw [← (Prod.mk.inj heq).1]
      exact iff_of_true (h.clearRange hcleared) trivial

/-- A step keeps the database in order exactly if it is proper. -/
theorem GattDb.Sound.step_iff (h : db.Sound) (op : DbOp) :
    ∃ db', (dbMachine.step db op).2 = some db' ∧ (db'.Sound ↔ op.Proper db) := by
  rcases happly : db.apply op with _ | ⟨db', result⟩
  · refine ⟨db, ?_, iff_of_true h fun hsome => ?_⟩
    · simp only [dbMachine, happly]
    · rw [happly] at hsome
      cases hsome
  · refine ⟨db', ?_, (h.apply_iff happly).trans ⟨fun hfits _ => hfits, fun hproper => ?_⟩⟩
    · simp only [dbMachine, happly]
    · exact hproper (by rw [happly]; rfl)

end Runs

/-- The database is in order all the time exactly if every call that succeeds puts
    a service around no other one and an attribute behind those of its service,
    within its range. -/
theorem in_order_iff_proper (ops : List DbOp) :
    dbMachine.Steps (fun db op => op.Proper db) .new ops ↔
      ∀ before after db, ops = before ++ after → dbMachine.Reaches .new before db → db.Sound :=
  steps_iff_reaches (fun _ op h => h.step_iff op) .new ops

-- A service around another one is accepted, and put behind it.
example : (dbMachine.run .new [.insertService 5 (.uuid16 0x1800) true 2,
      .insertService 1 (.uuid16 0x1801) true 20]).2.map
        (fun db => db.attributes.map Attribute.handle) = some [5, 1] := by
  decide

namespace Service

variable {s : Service}

/-- The handles of a service follow each other without a gap. -/
structure Dense (s : Service) : Prop where
  handles : s.attributes.map Attribute.handle =
    List.range' s.declaration.handle s.attributes.length
  room : s.attributes.length ≤ s.numHandles

theorem Dense.last (h : s.Dense) :
    s.lastAttribute.handle = s.declaration.handle + s.attributes.length - 1 := by
  have hlength : s.attributes.length - 1 < s.attributes.length := by
    rw [attributes, List.length_cons]
    omega
  have hget : (s.attributes.map Attribute.handle)[s.attributes.length - 1]? =
      some s.lastAttribute.handle := by
    rw [List.getElem?_map, ← List.getLast?_eq_getElem?,
      List.getLast?_eq_some_getLast s.attributes_ne_nil]
    rfl
  rw [h.handles, List.getElem?_range' hlength] at hget
  rw [← Option.some.inj hget]
  omega

theorem Dense.sound (h : s.Dense) : s.Sound := by
  have hlength : 1 ≤ s.attributes.length := by
    rw [attributes, List.length_cons]
    omega
  refine ⟨hlength.trans h.room, ?_, fun a ha => ?_⟩
  · rw [h.handles]
    exact List.pairwise_lt_range'
  · have hmem := List.mem_map_of_mem (f := Attribute.handle) ha
    have hroom := h.room
    rw [h.handles, List.mem_range'_1] at hmem
    rw [endHandle]
    omega

/-- The handles for a free index are within the range. -/
theorem Dense.last_add_lt (h : s.Dense) {endOffset i : ℕ}
    (hindex : s.getAttributeIndex endOffset = some i) :
    s.lastAttribute.handle + endOffset < s.endHandle := by
  have hlength : 1 ≤ s.attributes.length := by
    rw [attributes, List.length_cons]
    omega
  have hroom := getAttributeIndex_room hindex
  rw [h.last, endHandle]
  omega

/-- Attributes with the next handles are added. -/
theorem Dense.append (h : s.Dense) {new : List Attribute}
    (hnew : new.map Attribute.handle = List.range' (s.lastAttribute.handle + 1) new.length)
    (hroom : s.attributes.length + new.length ≤ s.numHandles) :
    ({ s with rest := s.rest ++ new } : Service).Dense := by
  have hattributes : ({ s with rest := s.rest ++ new } : Service).attributes =
      s.attributes ++ new := rfl
  have hlength : 1 ≤ s.attributes.length := by
    rw [attributes, List.length_cons]
    omega
  refine ⟨?_, ?_⟩
  · rw [hattributes, List.map_append, h.handles, hnew, List.length_append, h.last,
      show s.declaration.handle + s.attributes.length - 1 + 1 =
        s.declaration.handle + 1 * s.attributes.length by omega]
    exact List.range'_append
  · rw [hattributes, List.length_append]
    exact hroom

end Service

/-- A call that leaves the choice of handles to the database. -/
def DbOp.Adds : DbOp → Prop
  | .insertService .. => False
  | .characteristic _ handle .. | .descriptor _ handle .. => handle = 0
  | .addService .. | .included .. | .setActive .. | .removeService _ | .clearRange .. => True

/-- Such a database, in which the next service goes behind the others. -/
structure GattDb.Dense (db : GattDb) : Prop where
  order : db.Sound
  dense : ∀ s ∈ db.services, s.Dense
  next : db.nextHandle = 0 ∨ ∀ s ∈ db.services, s.endHandle < db.nextHandle

section Additions

variable {db db' : GattDb}

theorem GattDb.Dense.new : GattDb.new.Dense :=
  ⟨.new, fun _ h => absurd h List.not_mem_nil, Or.inr fun _ h => absurd h List.not_mem_nil⟩

/-- Without a given handle a characteristic is added as the server adds it. -/
theorem Service.Dense.characteristic_eq {s : Service} (h : s.Dense) (hstop : s.endHandle ≤ 65535)
    (uuid : Uuid) (permissions properties : ℕ) (readFunc : Option ReadFunc)
    (writeFunc : Option WriteFunc) :
    serviceInsertCharacteristic s 0 uuid permissions properties readFunc writeFunc =
      s.insertCharacteristic uuid permissions properties readFunc writeFunc := by
  unfold serviceInsertCharacteristic insertCharacteristic
  rw [if_neg (fun hzero => hzero.1 rfl), if_neg (by decide)]
  rcases hindex : s.getAttributeIndex 1 with _ | i
  · rfl
  · simp only [Option.bind_eq_bind, Option.bind_some, if_pos, getAttributeIndex_last hindex]
    -- No handle wraps around: those of the characteristic are within the range.
    have hnext := h.last_add_lt hindex
    have hmod : (s.lastAttribute.handle + 2) % 2 ^ 16 = s.lastAttribute.handle + 2 := by omega
    have hbefore : handleBefore (s.lastAttribute.handle + 2) = s.lastAttribute.handle + 2 - 1 := by
      unfold handleBefore
      omega
    rw [hmod, hbefore]

/-- And so is a descriptor. -/
theorem Service.Dense.descriptor_eq {s : Service} (h : s.Dense) (hstop : s.endHandle ≤ 65535)
    (uuid : Uuid) (permissions : ℕ) (readFunc : Option ReadFunc) (writeFunc : Option WriteFunc) :
    serviceInsertDescriptor s 0 uuid permissions readFunc writeFunc =
      s.insertDescriptor uuid permissions readFunc writeFunc := by
  unfold serviceInsertDescriptor insertDescriptor
  rcases hindex : s.getAttributeIndex 0 with _ | i
  · rfl
  · simp only [Option.bind_eq_bind, Option.bind_some, if_pos, getAttributeIndex_last hindex,
      ne_eq, not_true_eq_false, false_and, if_false]
    have hnext := h.last_add_lt hindex
    have hmod : (s.lastAttribute.handle + 1) % 2 ^ 16 = s.lastAttribute.handle + 1 := by omega
    rw [hmod]

theorem Service.Dense.characteristic {s t : Service} (h : s.Dense) (hstop : s.endHandle ≤ 65535)
    {permissions properties result : ℕ} {uuid : Uuid} {readFunc : Option ReadFunc}
    {writeFunc : Option WriteFunc}
    (heq : serviceInsertCharacteristic s 0 uuid permissions properties readFunc writeFunc =
      some (t, result)) : ∃ new, t = { s with rest := s.rest ++ new } ∧ t.Dense := by
  rw [h.characteristic_eq hstop] at heq
  rcases Option.bind_eq_some_iff.mp heq with ⟨i, hindex, heq⟩
  rw [getAttributeIndex_last hindex] at heq
  rw [← (Prod.mk.inj (Option.some.inj heq)).1]
  refine ⟨_, rfl, h.append rfl ?_⟩
  have hroom := getAttributeIndex_room hindex
  rw [List.length_cons, List.length_singleton]
  omega

theorem Service.Dense.descriptor {s t : Service} (h : s.Dense) (hstop : s.endHandle ≤ 65535)
    {permissions result : ℕ} {uuid : Uuid} {readFunc : Option ReadFunc}
    {writeFunc : Option WriteFunc}
    (heq : serviceInsertDescriptor s 0 uuid permissions readFunc writeFunc = some (t, result)) :
    ∃ new, t = { s with rest := s.rest ++ new } ∧ t.Dense := by
  rw [h.descriptor_eq hstop] at heq
  rcases Option.bind_eq_some_iff.mp heq with ⟨i, hindex, heq⟩
  rw [getAttributeIndex_last hindex] at heq
  rw [← (Prod.mk.inj (Option.some.inj heq)).1]
  refine ⟨_, rfl, h.append rfl ?_⟩
  have hroom := getAttributeIndex_room hindex
  rw [List.length_singleton]
  omega

theorem Service.Dense.included {s t : Service} (h : s.Dense) (hstop : s.endHandle ≤ 65535)
    {handle result : ℕ} {included : Service}
    (heq : serviceInsertIncluded s handle included = some (t, result)) :
    ∃ new, t = { s with rest := s.rest ++ new } ∧ t.Dense := by
  unfold serviceInsertIncluded at heq
  split at heq
  · cases heq
  · case h_2 i hindex =>
      split at heq
      · cases heq
      rw [getAttributeIndex_last hindex] at heq
      have hroom := getAttributeIndex_room hindex
      have hnext := h.last_add_lt hindex
      have hmod : (s.lastAttribute.handle + 1) % 2 ^ 16 = s.lastAttribute.handle + 1 := by omega
      rw [← (Prod.mk.inj (Option.some.inj heq)).1, hmod]
      refine ⟨_, rfl, h.append rfl ?_⟩
      rw [List.length_singleton]
      omega

/-- A service behind the others, unless the handles are used up. -/
theorem GattDb.Dense.addService (h : db.Dense) {numHandles result : ℕ} {uuid : Uuid}
    {primary : Bool}
    (heq : gattDbInsertService db db.nextHandle uuid primary numHandles = some (db', result)) :
    db'.Dense := by
  -- Nothing lies behind the next handle, so the range is around no service.
  have hclear : db.Clear db.nextHandle numHandles := by
    intro s hs hin
    have hvalid : s.declaration.handle ≤ s.endHandle := h.order.services.valid s hs
    have hstart := h.order.start s hs
    rcases h.next with hzero | hnext
    · have hroom := (gattDbInsertService_cases heq).1
      omega
    · have hs' := hnext s hs
      omega
  have horder := (h.order.insertService_iff heq).mpr hclear
  rcases gattDbInsertService_cases heq with ⟨hroom, ⟨_, _, _, _, rfl⟩ | ⟨count, hloc, rfl⟩⟩
  · exact h
  refine ⟨horder, fun s hs => ?_, ?_⟩
  · rcases mem_take_append_cons_drop.mp hs with rfl | hold
    · exact ⟨rfl, hroom.2.1⟩
    · exact h.dense s hold
  · -- The handle after the last one is zero.
    show max (db.nextHandle + numHandles) db.nextHandle % 2 ^ 16 = 0 ∨ _
    by_cases hfull : db.nextHandle + numHandles = 2 ^ 16
    · left
      omega
    · right
      intro s hs
      show s.endHandle < max (db.nextHandle + numHandles) db.nextHandle % 2 ^ 16
      rcases mem_take_append_cons_drop.mp hs with rfl | hold
      · show db.nextHandle + numHandles - 1 < _
        omega
      · rcases h.next with hzero | hnext
        · omega
        · have hs' := hnext s hold
          omega

theorem GattDb.Dense.extendService (h : db.Dense) {service result : ℕ}
    {f : Service → Option (Service × ℕ)} (heq : db.extendService service f = some (db', result))
    (hf : ∀ s t r, s.Dense → s.endHandle ≤ 65535 → f s = some (t, r) →
      ∃ new, t = { s with rest := s.rest ++ new } ∧ t.Dense) : db'.Dense := by
  have horder : db'.Sound := by
    have hiff : db'.Sound ↔ ∀ s, db.serviceAt service = some s → True := by
      refine h.order.extendService_iff heq fun s hs t r _ hstop ht => ?_
      rcases hf s t r (h.dense s hs) hstop ht with ⟨new, heq, hdense⟩
      exact ⟨new, heq, iff_of_true hdense.sound trivial⟩
    exact hiff.mpr fun _ _ => trivial
  rcases Option.bind_eq_some_iff.mp heq with ⟨old, hold, heq⟩
  rcases Option.bind_eq_some_iff.mp heq with ⟨⟨new, handle⟩, hnew, heq⟩
  have hmem := List.mem_of_find?_eq_some hold
  have hhandle : old.declaration.handle = service := by
    have hfound := List.find?_some hold
    rwa [decide_eq_true_eq] at hfound
  rcases hf old new handle (h.dense old hmem) (h.order.stop old hmem) hnew with ⟨added, rfl, hdense⟩
  rw [← (Prod.mk.inj (Option.some.inj heq)).1] at horder ⊢
  refine ⟨horder, fun s hs => ?_, h.next.imp id fun hnext s hs => ?_⟩
  · rcases List.mem_map.mp hs with ⟨t, ht, rfl⟩
    split
    · exact hdense
    · exact h.dense t ht
  · -- The extended service ends where it did.
    rcases List.mem_map.mp hs with ⟨t, ht, rfl⟩
    split
    · exact hnext old hmem
    · exact hnext t ht

/-- What leaves out services keeps the rest as it was. -/
theorem GattDb.Dense.sublist (h : db.Dense) {services : List Service} {next : ℕ}
    (hsub : services.Sublist db.services) (hnext : next = 0 ∨ next = db.nextHandle) :
    (⟨next, services⟩ : GattDb).Dense := by
  refine ⟨h.order.sublist next hsub, fun s hs => h.dense s (hsub.subset hs), ?_⟩
  rcases hnext with rfl | rfl
  · exact Or.inl rfl
  · exact h.next.imp id fun hall s hs => hall s (hsub.subset hs)

/-- A call that leaves the choice of handles to the database keeps it dense. -/
theorem GattDb.Dense.apply (h : db.Dense) {op : DbOp} {result : ℕ} (hadds : op.Adds)
    (heq : db.apply op = some (db', result)) : db'.Dense := by
  cases op with
  | addService uuid primary numHandles => exact h.addService heq
  | insertService handle uuid primary numHandles => exact hadds.elim
  | characteristic service handle uuid permissions properties readFunc writeFunc =>
      cases hadds
      exact h.extendService heq fun s t r hs hstop => hs.characteristic hstop
  | descriptor service handle uuid permissions readFunc writeFunc =>
      cases hadds
      exact h.extendService heq fun s t r hs hstop => hs.descriptor hstop
  | included service handle other =>
      rcases Option.bind_eq_some_iff.mp heq with ⟨included, _, heq⟩
      exact h.extendService heq fun s t r hs hstop => hs.included hstop
  | setActive service active =>
      rw [← (Prod.mk.inj (Option.some.inj heq)).1]
      refine ⟨h.order.setActive service active, fun s hs => ?_, h.next.imp id fun hnext s hs => ?_⟩
      · rcases List.mem_map.mp hs with ⟨t, ht, rfl⟩
        split
        · exact ⟨(h.dense t ht).handles, (h.dense t ht).room⟩
        · exact h.dense t ht
      · rcases List.mem_map.mp hs with ⟨t, ht, rfl⟩
        split
        · exact hnext t ht
        · exact hnext t ht
  | removeService service =>
      rw [← (Prod.mk.inj (Option.some.inj heq)).1]
      exact h.sublist List.filter_sublist (Or.inr rfl)
  | clearRange startHandle endHandle =>
      rcases Option.map_eq_some_iff.mp heq with ⟨cleared, hcleared, heq⟩
      rw [← (Prod.mk.inj heq).1]
      unfold gattDbClearRange at hcleared
      split at hcleared
      · cases hcleared
      · rw [← Option.some.inj hcleared]
        refine h.sublist ?_ (ite_eq_or_eq _ _ _)
        split
        · exact List.nil_sublist _
        · exact List.filter_sublist

/-- A range behind all services goes to the end. -/
theorem findInsertLoc_behind {services : List Service} {start stop : ℕ} (hle : start ≤ stop)
    (hvalid : ∀ s ∈ services, s.declaration.handle ≤ s.endHandle)
    (hbehind : ∀ s ∈ services, s.endHandle < start) :
    findInsertLoc start stop services = .after services.length := by
  induction services with
  | nil => rfl
  | cons s services ih =>
      have hs := hbehind s List.mem_cons_self
      have hs' := hvalid s List.mem_cons_self
      unfold findInsertLoc
      simp only
      rw [if_neg (by omega), if_neg (by omega), if_neg (by omega),
        ih (fun t ht => hvalid t (List.mem_cons_of_mem s ht))
          fun t ht => hbehind t (List.mem_cons_of_mem s ht), List.length_cons]

/-- On a dense database with a next handle, `gatt_db_add_service` adds to the end. -/
theorem GattDb.Dense.addService_eq (h : db.Dense) (hnext : db.nextHandle ≠ 0) (uuid : Uuid)
    (primary : Bool) (numHandles : ℕ) :
    gattDbInsertService db db.nextHandle uuid primary numHandles =
      (gattDbAddService db uuid primary numHandles).map fun r =>
        ({ r.1 with nextHandle := r.1.nextHandle % 2 ^ 16 }, r.2) := by
  unfold gattDbInsertService gattDbAddService
  rw [if_neg (by omega)]
  simp only
  split
  · rfl
  · case isFalse hroom =>
      rw [not_or] at hroom
      have hbehind := h.next.resolve_left hnext
      rw [findInsertLoc_behind (by omega) h.order.services.valid hbehind]
      simp only [Option.map_some, List.take_length, List.drop_length]
      rfl

end Additions

section Results

/-- What every call of a kind preserves if it succeeds holds after every run. -/
theorem reaches_invariant_apply {P : GattDb → Prop} {Ok : DbOp → Prop}
    (happly : ∀ db op db' result, P db → Ok op → db.apply op = some (db', result) → P db')
    {ops : List DbOp} {db db' : GattDb} (hok : ∀ op ∈ ops, Ok op) (hP : P db)
    (hdb : dbMachine.Reaches db ops db') : P db' := by
  refine reaches_invariant_of P Ok (fun db op db' h hop hstep => ?_) hok hP hdb
  rcases heq : db.apply op with _ | ⟨next, result⟩
  · simp only [dbMachine, heq, Option.some.injEq] at hstep
    exact hstep ▸ h
  · simp only [dbMachine, heq, Option.some.injEq] at hstep
    exact hstep ▸ happly db op next result h hop heq

/-- As long as calls leave the choice of handles to the database, the handles of a
    service have no gap between them, the handles of all attributes rise, and
    each attribute is found by its handle. -/
theorem added_in_order {ops : List DbOp} {db : GattDb} (hadds : ∀ op ∈ ops, op.Adds)
    (hdb : dbMachine.Reaches .new ops db) :
    (∀ s ∈ db.services, s.attributes.map Attribute.handle =
        List.range' s.declaration.handle s.attributes.length) ∧
      (db.attributes.map Attribute.handle).Pairwise (· < ·) ∧
      ∀ a ∈ db.attributes, gattDbGetAttribute db a.handle = some a := by
  have hdense : db.Dense := reaches_invariant_apply (fun db op db' result h => h.apply) hadds
    .new hdb
  exact ⟨fun s hs => (hdense.dense s hs).handles, hdense.order.rising, fun a ha =>
    hdense.order.get ha⟩

theorem added_in_order_battery : ∃ db, dbMachine.Reaches .new
      [.addService (.uuid16 0x180F) true 3, .characteristic 1 0 (.uuid16 0x2A19) 1 2 none none] db ∧
    db.services ≠ [] ∧ (db.attributes.map Attribute.handle).Pairwise (· < ·) := by
  have hadds : ∀ op ∈ [DbOp.addService (.uuid16 0x180F) true 3,
      .characteristic 1 0 (.uuid16 0x2A19) 1 2 none none], op.Adds := by
    intro op hop
    rcases List.mem_cons.mp hop with rfl | hop
    · trivial
    · rw [List.mem_singleton.mp hop]
      rfl
  exact ⟨_, rfl, List.cons_ne_nil _ _, (added_in_order hadds rfl).2.1⟩

/-- A database without services that has no next handle, either. -/
def GattDb.Cleared (db : GattDb) : Prop := db.nextHandle = 0 ∧ db.services = []

theorem GattDb.Cleared.apply {db db' : GattDb} (h : db.Cleared) {op : DbOp} {result : ℕ}
    (hadds : op.Adds) (heq : db.apply op = some (db', result)) : db'.Cleared := by
  rcases h with ⟨hnext, hservices⟩
  -- There is no service to extend.
  have hextend (service : ℕ) (f : Service → Option (Service × ℕ)) :
      db.extendService service f ≠ some (db', result) := by
    unfold extendService
    rw [hservices]
    intro hsome
    cases hsome
  cases op with
  | addService uuid primary numHandles =>
      have hroom := (gattDbInsertService_cases heq).1
      omega
  | insertService handle uuid primary numHandles => exact hadds.elim
  | characteristic service handle uuid permissions properties readFunc writeFunc =>
      exact (hextend _ _ heq).elim
  | descriptor service handle uuid permissions readFunc writeFunc =>
      exact (hextend _ _ heq).elim
  | included service handle other =>
      rcases Option.bind_eq_some_iff.mp heq with ⟨included, _, heq⟩
      exact (hextend _ _ heq).elim
  | setActive service active =>
      rw [← (Prod.mk.inj (Option.some.inj heq)).1]
      refine ⟨hnext, ?_⟩
      rw [gattDbServiceSetActive, hservices]
      rfl
  | removeService service =>
      rw [← (Prod.mk.inj (Option.some.inj heq)).1]
      refine ⟨hnext, ?_⟩
      rw [gattDbRemoveService, hservices]
      rfl
  | clearRange startHandle endHandle =>
      rcases Option.map_eq_some_iff.mp heq with ⟨cleared, hcleared, heq⟩
      rw [← (Prod.mk.inj heq).1]
      unfold gattDbClearRange at hcleared
      rw [hservices, List.filter_nil, ite_self] at hcleared
      split at hcleared
      · cases hcleared
      · rw [← Option.some.inj hcleared]
        exact ⟨rfl, rfl⟩

/-- Once a range with all services has been cleared, no service can be added
    anymore, except at a given handle. -/
theorem no_service_after_clear {startHandle endHandle : ℕ} {ops : List DbOp}
    {db db' last : GattDb} (hclear : gattDbClearRange db startHandle endHandle = some db')
    (hempty : db'.services = []) (hadds : ∀ op ∈ ops, op.Adds)
    (hlast : dbMachine.Reaches db' ops last) (uuid : Uuid) (primary : Bool) (numHandles : ℕ) :
    last.services = [] ∧ last.apply (.addService uuid primary numHandles) = none := by
  have hcleared : db'.Cleared := by
    refine ⟨?_, hempty⟩
    unfold gattDbClearRange at hclear
    split at hclear
    · cases hclear
    · rw [← Option.some.inj hclear] at hempty ⊢
      exact if_pos (List.isEmpty_iff.mpr hempty)
  have hend : last.Cleared := reaches_invariant_apply (fun db op db' result h => h.apply) hadds
    hcleared hlast
  refine ⟨hend.2, ?_⟩
  rw [GattDb.apply, gattDbInsertService, hend.1]
  exact if_pos (by decide)

/-- Once the only service has been removed, the call that added it fails. -/
theorem no_service_after_clear_battery : ∃ db db' last,
    dbMachine.Reaches .new [.addService (.uuid16 0x180F) true 3] db ∧ db.services ≠ [] ∧
      gattDbClearRange db 1 3 = some db' ∧
      dbMachine.Reaches db' [.addService (.uuid16 0x180F) true 3,
        .characteristic 1 0 (.uuid16 0x2A19) 1 2 none none] last ∧
      last.services = [] ∧ last.apply (.addService (.uuid16 0x180F) true 3) = none := by
  obtain ⟨db, hadded, hservices, hclear⟩ : ∃ db,
      dbMachine.Reaches .new [.addService (.uuid16 0x180F) true 3] db ∧ db.services ≠ [] ∧
        gattDbClearRange db 1 3 = some ⟨0, []⟩ := ⟨_, rfl, List.cons_ne_nil _ _, rfl⟩
  have hadds : ∀ op ∈ [DbOp.addService (.uuid16 0x180F) true 3,
      .characteristic 1 0 (.uuid16 0x2A19) 1 2 none none], op.Adds := by
    intro op hop
    rcases List.mem_cons.mp hop with rfl | hop
    · trivial
    · rw [List.mem_singleton.mp hop]
      rfl
  have hlast : dbMachine.Reaches ⟨0, []⟩ [.addService (.uuid16 0x180F) true 3,
      .characteristic 1 0 (.uuid16 0x2A19) 1 2 none none] ⟨0, []⟩ := rfl
  exact ⟨db, _, _, hadded, hservices, hclear, hlast,
    no_service_after_clear hclear rfl hadds hlast (.uuid16 0x180F) true 3⟩

end Results

end Wallclock
