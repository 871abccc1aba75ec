import Mathlib.Data.Nat.Notation
import Wallclock.Core.AttTypes
import Wallclock.Library.Bytes

/-!
# The Attribute Database

The attribute database of `gatt-db.c`, as far as a server that fills it once
and then answers requests uses it: adding services, characteristics and
descriptors, and looking attributes up.

A pointer to an attribute is its handle, and a pointer to a service is the
handle of its declaration. Handles are given out in increasing order and no
service is removed, so both name one object. A service's slots fill from the
front, so they are the declaration followed by the attributes added so far;
the slots after those are the NULL ones.

The functions an attribute reads and writes through are function pointers of
the application, named here by `ReadFunc` and `WriteFunc`.

## Main definitions

* `Uuid`: A 16-bit or a 128-bit UUID.
* `Uuid.cmp`: `bt_uuid_cmp`, comparing by the 128-bit form.
* `ReadFunc`, `WriteFunc`: The callbacks an attribute can have.
* `Pending`: The identifier counter and the queue of operations in progress.
* `Pending.push`, `Pending.result`: An operation begins, and is answered.
* `Attribute`, `Service`, `GattDb`: The database.
* `Attribute.store`: A write to a value that is stored in the database.
* `gattDbAddService`, `gattDbServiceAddCharacteristic`,
  `gattDbServiceAddDescriptor`, `gattDbServiceSetActive`: Filling it.
* `gattDbGetAttribute`, `gattDbReadByGroupType`, `gattDbFindByTypeValue`,
  `gattDbReadByType`, `gattDbFindInformation`: Looking attributes up.
* `gattDbAttributeGetCharData`: The extended properties of a characteristic.
-/

namespace Wallclock

open ByteCodec

inductive Uuid
  | uuid16 (value : BitVec 16)
  | uuid128 (value : BitVec 128)
deriving DecidableEq

namespace Uuid

/-- `bluetooth_base_uuid`, in which a 16-bit UUID takes bytes 2 and 3. -/
def base : BitVec 128 := 0x00000000000010008000_00805F9B34FB

def toUuid128 : Uuid → BitVec 128
  | uuid16 value => base ||| (value.setWidth 128 <<< 96)
  | uuid128 value => value

/-- Whether two UUIDs are the same. -/
def cmp (u v : Uuid) : Bool := u.toUuid128 == v.toUuid128

/-- `bt_uuid_to_le`, and its twin `uuid_to_le` in the database. -/
def toLe : Uuid → List UInt8
  | uuid16 value => leBytes 2 value.toNat
  | uuid128 value => leBytes 16 value.toNat

/-- `get_uuid_le`. Only the lengths 2 and 16 are passed to it. -/
def ofLe (uuid : List UInt8) : Uuid :=
  if uuid.length = 2 then uuid16 (BitVec.ofNat 16 (leNat uuid))
  else uuid128 (BitVec.ofNat 128 (leNat uuid))

end Uuid

def gattPrimSvcUuid : Uuid := .uuid16 0x2800
def gattSndSvcUuid : Uuid := .uuid16 0x2801
def gattIncludeUuid : Uuid := .uuid16 0x2802
def gattCharacUuid : Uuid := .uuid16 0x2803
def gattCharacExtProperUuid : Uuid := .uuid16 0x2900
def gattClientCharacCfgUuid : Uuid := .uuid16 0x2902

/-- The read callbacks of `server.c`. -/
inductive ReadFunc
  | gattServiceChangedCb
  | gattSvcChngdCccReadCb
  | clockReadDataCccReadCb
deriving DecidableEq

/-- The write callbacks of `server.c`. -/
inductive WriteFunc
  | gattSvcChngdCccWriteCb
  | clockReadDataCccWriteCb
  | clockWriteDataWriteCb
deriving DecidableEq

/-- `read_id` and `pending_reads` of an attribute, or `write_id` and
    `pending_writes`. The counter has 32 bits. -/
structure Pending where
  id : BitVec 32
  queue : List (BitVec 32)
deriving DecidableEq

namespace Pending

def empty : Pending := ⟨0, []⟩

/-- An operation is queued under the next identifier. -/
def push (p : Pending) : Pending where
  id := p.id + 1
  queue := p.queue ++ [p.id + 1]

/-- `gatt_db_attribute_read_result` and `gatt_db_attribute_write_result`: the
    queue after it, and whether an operation was found and completed. -/
def result (p : Pending) (id : BitVec 32) : Pending × Bool :=
  if id = 0 then (p, false)
  else if id ∈ p.queue then ({ p with queue := p.queue.erase id }, true)
  else (p, false)

end Pending

/-- An attribute. A value of length zero is also the NULL value. -/
structure Attribute where
  handle : ℕ
  uuid : Uuid
  permissions : ℕ
  value : List UInt8
  readFunc : Option ReadFunc
  writeFunc : Option WriteFunc
  reads : Pending
  writes : Pending
deriving DecidableEq

namespace Attribute

/-- `new_attribute` followed by `set_attribute_data`. -/
def new (handle : ℕ) (uuid : Uuid) (value : List UInt8) (readFunc : Option ReadFunc)
    (writeFunc : Option WriteFunc) (permissions : ℕ) : Attribute :=
  ⟨handle, uuid, permissions, value, readFunc, writeFunc, .empty, .empty⟩

/-- The stored value after a write. `heap` is what `realloc` leaves in the
    bytes between the old value and the offset; only the first allocation
    clears them. The length is kept in 16 bits. -/
def store (attrib : Attribute) (heap : ℕ → UInt8) (offset : ℕ) (value : List UInt8) : Attribute :=
  let old := attrib.value
  if value.length = 0 then attrib
  else if offset ≥ old.length ∨ value.length > old.length - offset then
    let start := if old.length = 0 then List.replicate offset 0
      else old.take offset ++ (List.range (offset - old.length)).map fun i => heap (old.length + i)
    { attrib with value := (start ++ value).take ((value.length + offset) % 2 ^ 16) }
  else { attrib with value := old.take offset ++ value ++ old.drop (offset + value.length) }

end Attribute

structure Service where
  active : Bool
  numHandles : ℕ
  declaration : Attribute
  rest : List Attribute
deriving DecidableEq

namespace Service

def attributes (service : Service) : List Attribute := service.declaration :: service.rest

/-- The end handle of `gatt_db_service_get_handles`; the start handle is that
    of the declaration. -/
def endHandle (service : Service) : ℕ := service.declaration.handle + service.numHandles - 1

/-- The first free slot that leaves `endOffset` slots after it. -/
def getAttributeIndex (service : Service) (endOffset : ℕ) : Option ℕ :=
  if service.attributes.length < service.numHandles - endOffset then
    some service.attributes.length
  else none

def getHandleAtIndex (service : Service) (index : ℕ) : ℕ :=
  (service.attributes.getD index service.declaration).handle

/-- `service_insert_characteristic` without a given handle: the declaration
    and the value. The result carries the handle of the value. -/
def insertCharacteristic (service : Service) (uuid : Uuid) (permissions properties : ℕ)
    (readFunc : Option ReadFunc) (writeFunc : Option WriteFunc) : Option (Service × ℕ) := do
  let i ← service.getAttributeIndex 1
  let handle := service.getHandleAtIndex (i - 1) + 2
  let value := leBytes 1 properties ++ leBytes 2 handle ++ uuid.toLe
  some ({ service with rest := service.rest ++
    [.new (handle - 1) gattCharacUuid value none none btAttPermRead,
      .new handle uuid [] readFunc writeFunc permissions] }, handle)

/-- `service_insert_descriptor` without a given handle. -/
def insertDescriptor (service : Service) (uuid : Uuid) (permissions : ℕ)
    (readFunc : Option ReadFunc) (writeFunc : Option WriteFunc) : Option (Service × ℕ) := do
  let i ← service.getAttributeIndex 0
  let handle := service.getHandleAtIndex (i - 1) + 1
  some ({ service with
    rest := service.rest ++ [.new handle uuid [] readFunc writeFunc permissions] }, handle)

end Service

structure GattDb where
  nextHandle : ℕ
  services : List Service
deriving DecidableEq

namespace GattDb

/-- `gatt_db_new`. -/
def new : GattDb := ⟨0x0001, []⟩

def attributes (db : GattDb) : List Attribute := db.services.flatMap Service.attributes

/-- Apply a function to every attribute. -/
def mapAttributes (db : GattDb) (f : Attribute → Attribute) : GattDb :=
  { db with services := db.services.map fun service =>
    { service with declaration := f service.declaration, rest := service.rest.map f } }

/-- The database after the object behind an attribute pointer has changed. -/
def setAttribute (db : GattDb) (attrib : Attribute) : GattDb :=
  db.mapAttributes fun a => if a.handle = attrib.handle then attrib else a

/-- Extend the service behind a service pointer. -/
def extendService (db : GattDb) (service : ℕ) (f : Service → Option (Service × ℕ)) :
    Option (GattDb × ℕ) := do
  let old ← db.services.find? fun s => s.declaration.handle = service
  let (new, handle) ← f old
  some ({ db with services := db.services.map fun s =>
    if s.declaration.handle = service then new else s }, handle)

end GattDb

/-- `gatt_db_add_service`. The new service comes after every other, so
    `find_insert_loc` finds no overlap and the last service to insert after. -/
def gattDbAddService (db : GattDb) (uuid : Uuid) (primary : Bool) (numHandles : ℕ) :
    Option (GattDb × ℕ) :=
  let handle := db.nextHandle
  if numHandles < 1 ∨ handle + numHandles - 1 > 65535 then none
  else
    let type := if primary then gattPrimSvcUuid else gattSndSvcUuid
    let service : Service :=
      ⟨false, numHandles, .new handle type uuid.toLe none none btAttPermRead, []⟩
    some (⟨max (handle + numHandles) db.nextHandle, db.services ++ [service]⟩, handle)

def gattDbServiceAddCharacteristic (db : GattDb) (service : ℕ) (uuid : Uuid)
    (permissions properties : ℕ) (readFunc : Option ReadFunc) (writeFunc : Option WriteFunc) :
    Option (GattDb × ℕ) :=
  db.extendService service
    (·.insertCharacteristic uuid permissions properties readFunc writeFunc)

def gattDbServiceAddDescriptor (db : GattDb) (service : ℕ) (uuid : Uuid) (permissions : ℕ)
    (readFunc : Option ReadFunc) (writeFunc : Option WriteFunc) : Option (GattDb × ℕ) :=
  db.extendService service (·.insertDescriptor uuid permissions readFunc writeFunc)

def gattDbServiceSetActive (db : GattDb) (service : ℕ) (active : Bool) : GattDb :=
  { db with services := db.services.map fun s =>
    if s.declaration.handle = service then { s with active } else s }

def gattDbGetService (db : GattDb) (handle : ℕ) : Option Service :=
  if handle = 0 then none
  else db.services.find? fun s => s.declaration.handle ≤ handle ∧ handle ≤ s.endHandle

def gattDbGetAttribute (db : GattDb) (handle : ℕ) : Option Attribute := do
  let service ← gattDbGetService db handle
  service.attributes.find? fun a => a.handle = handle

/-- The services queued by `gatt_db_read_by_group_type`. It stops at the first
    one whose UUID has another size than those before. -/
def gattDbReadByGroupType (db : GattDb) (startHandle endHandle : ℕ) (type : Uuid) :
    List Service :=
  go 0 (db.services.filter fun s => s.active ∧ type.cmp s.declaration.uuid ∧
    ¬(s.endHandle < startHandle ∨ s.declaration.handle > endHandle) ∧
    ¬(s.declaration.handle < startHandle ∨ s.declaration.handle > endHandle))
where
  go (uuidSize : ℕ) : List Service → List Service
    | [] => []
    | s :: services =>
      if uuidSize ≠ 0 ∧ uuidSize ≠ s.declaration.value.length then []
      else s :: go s.declaration.value.length services

/-- `gatt_db_find_by_type_value`: the service of every attribute with the type
    and value, which is all that is asked of the attribute. -/
def gattDbFindByTypeValue (db : GattDb) (startHandle endHandle : ℕ) (type : Uuid)
    (value : List UInt8) : List Service :=
  (db.services.filter (·.active)).flatMap fun s =>
    (s.attributes.filter fun a =>
      ¬(a.handle < startHandle ∨ a.handle > endHandle) ∧ type.cmp a.uuid ∧ a.value = value).map
      fun _ => s

/-- The attributes of a service in a range of handles: those before the range
    are skipped, and the search ends at the first one after it. -/
def Service.inRange (service : Service) (startHandle endHandle : ℕ) : List Attribute :=
  (service.attributes.filter fun a => ¬a.handle < startHandle).takeWhile
    fun a => ¬a.handle > endHandle

def gattDbReadByType (db : GattDb) (startHandle endHandle : ℕ) (type : Uuid) : List Attribute :=
  (db.services.filter (·.active)).flatMap fun s =>
    (s.inRange startHandle endHandle).filter fun a => type.cmp a.uuid

def gattDbFindInformation (db : GattDb) (startHandle endHandle : ℕ) : List Attribute :=
  (db.services.filter fun s => s.active ∧ ¬s.endHandle < startHandle).flatMap
    fun s => s.inRange startHandle endHandle

/-- `gatt_db_service_foreach_desc`: the descriptors of a characteristic, which
    end at the next declaration. -/
def gattDbServiceDescs (service : Service) (attrib : Attribute) : List Attribute :=
  ((service.attributes.dropWhile fun a => a.handle ≠ attrib.handle).drop 2).takeWhile
    fun a => ¬(gattCharacUuid.cmp a.uuid ∨ gattIncludeUuid.cmp a.uuid)

/-- `get_char_extended_prop`. The descriptor's value is stored in the
    database: no callback serves that descriptor type. -/
def getCharExtendedProp (service : Service) (attrib : Attribute) : ℕ :=
  if (attrib.value.headD 0).toNat &&& btGattChrcPropExtProp = 0 then 0
  else
    (gattDbServiceDescs service attrib).foldl (fun extProp a =>
      if extProp = 0 ∧ gattCharacExtProperUuid.cmp a.uuid ∧ a.value.length = 2 then
        (a.value.headD 0).toNat
      else extProp) 0

/-- The extended properties that `gatt_db_attribute_get_char_data` finds, if
    the attribute is a characteristic declaration. -/
def gattDbAttributeGetCharData (service : Service) (attrib : Attribute) : Option ℕ :=
  if ¬gattCharacUuid.cmp attrib.uuid then none
  else if attrib.value.length ≠ 5 ∧ attrib.value.length ≠ 19 then none
  else some (getCharExtendedProp service attrib)

end Wallclock
