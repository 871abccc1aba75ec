import Wallclock.Core.GattDb
import Wallclock.Library.Machine

/-!
# Changing the Attribute Database

The rest of `gatt-db.c` that changes the database: services at a given handle,
attributes at a given handle, included services, and the removal of services.

`Wallclock.Core.GattDb` has what the server calls, which adds everything at the
end. Here a service goes where `find_insert_loc` says, and an attribute takes
the handle that it is given, if it is given one. Handles have 16 bits.

A pointer to a service is the handle of its declaration, as there. No two
services begin at one handle as long as no service is inserted around another
one, which `Wallclock.Theory.Handles` has to assume anyway. An operation on a
service that is not in the database does nothing. Allocations succeed.

## Main definitions

* `findInsertLoc`, `gattDbInsertService`: A service at a given handle.
* `serviceInsertCharacteristic`, `serviceInsertDescriptor`,
  `serviceInsertIncluded`: Attributes.
* `gattDbRemoveService`, `gattDbClearRange`: Removal.
* `DbOp`, `dbMachine`: The database under a sequence of such calls.
-/

namespace Wallclock

open ByteCodec

/-- Where `find_insert_loc` stops: at a service in which the new range begins or
    ends, or after so many services. -/
inductive InsertLoc
  | taken (service : Service)
  | after (count : ℕ)

def findInsertLoc (start stop : ℕ) : List Service → InsertLoc
  | [] => .after 0
  | service :: services =>
    let curStart := service.declaration.handle
    let curEnd := service.endHandle
    if start ≥ curStart ∧ start ≤ curEnd then .taken service
    else if stop ≥ curStart ∧ stop ≤ curEnd then .taken service
    else if stop < curStart then .after 0
    else match findInsertLoc start stop services with
      | .taken service => .taken service
      | .after count => .after (count + 1)

/-- `gatt_db_service_create`, for a service that does not begin at zero. -/
def gattDbServiceCreate (uuid : Uuid) (handle : ℕ) (primary : Bool) (numHandles : ℕ) : Service :=
  let type := if primary then gattPrimSvcUuid else gattSndSvcUuid
  ⟨false, numHandles, .new handle type uuid.toLe none none btAttPermRead, []⟩

/-- `gatt_db_insert_service`. A service that is there already is returned. -/
def gattDbInsertService (db : GattDb) (handle : ℕ) (uuid : Uuid) (primary : Bool)
    (numHandles : ℕ) : Option (GattDb × ℕ) :=
  if handle < 1 then none
  else if numHandles < 1 ∨ handle + numHandles - 1 > 65535 then none
  else match findInsertLoc handle (handle + numHandles - 1) db.services with
    | .taken service =>
      let type := if primary then gattPrimSvcUuid else gattSndSvcUuid
      if service.declaration.uuid.cmp type ∧ (Uuid.ofLe service.declaration.value).cmp uuid ∧
          service.numHandles = numHandles ∧ service.declaration.handle = handle then
        some (db, handle)
      else none
    | .after count =>
      some (⟨max (handle + numHandles) db.nextHandle % 2 ^ 16, db.services.take count ++
        gattDbServiceCreate uuid handle primary numHandles :: db.services.drop count⟩, handle)

/-- The handle before a 16-bit handle. -/
def handleBefore (handle : ℕ) : ℕ := (handle + 2 ^ 16 - 1) % 2 ^ 16

/-- `service_insert_characteristic`; a handle of zero is none. The result carries
    the handle of the value. -/
def serviceInsertCharacteristic (service : Service) (handle : ℕ) (uuid : Uuid)
    (permissions properties : ℕ) (readFunc : Option ReadFunc) (writeFunc : Option WriteFunc) :
    Option (Service × ℕ) :=
  if handle ≠ 0 ∧ handle ≤ service.declaration.handle then none
  else if handle = 65535 then none
  else match service.getAttributeIndex 1 with
    | none => none
    | some i =>
      let handle := if handle = 0 then (service.getHandleAtIndex (i - 1) + 2) % 2 ^ 16 else handle
      let value := leBytes 1 properties ++ leBytes 2 handle ++ uuid.toLe
      some ({ service with rest := service.rest ++
        [.new (handleBefore handle) gattCharacUuid value none none btAttPermRead,
          .new handle uuid [] readFunc writeFunc permissions] }, handle)

def serviceInsertDescriptor (service : Service) (handle : ℕ) (uuid : Uuid) (permissions : ℕ)
    (readFunc : Option ReadFunc) (writeFunc : Option WriteFunc) : Option (Service × ℕ) :=
  match service.getAttributeIndex 0 with
  | none => none
  | some i =>
    if handle ≠ 0 ∧ handle ≤ service.declaration.handle then none
    else
      let handle := if handle = 0 then (service.getHandleAtIndex (i - 1) + 1) % 2 ^ 16 else handle
      some ({ service with
        rest := service.rest ++ [.new handle uuid [] readFunc writeFunc permissions] }, handle)

/-- `service_insert_included`. Whatever handle is given, `attribute_update` makes
    it the one after the last attribute. -/
def serviceInsertIncluded (service : Service) (handle : ℕ) (included : Service) :
    Option (Service × ℕ) :=
  match service.getAttributeIndex 0 with
  | none => none
  | some i =>
    if handle ≠ 0 ∧ handle ≤ service.declaration.handle then none
    else
      let uuid := included.declaration.value
      let value := leBytes 2 included.declaration.handle ++ leBytes 2 included.endHandle ++
        if uuid.length = 2 then uuid else []
      let handle := (service.getHandleAtIndex (i - 1) + 1) % 2 ^ 16
      some ({ service with
        rest := service.rest ++ [.new handle gattIncludeUuid value none none btAttPermRead] },
        handle)

def gattDbRemoveService (db : GattDb) (service : ℕ) : GattDb :=
  { db with services := db.services.filter fun s => s.declaration.handle ≠ service }

/-- `match_range`. -/
def matchRange (startHandle endHandle : ℕ) (service : Service) : Bool :=
  service.declaration.handle ≤ endHandle ∧ service.endHandle ≥ startHandle

/-- `gatt_db_clear_range`. A database without services begins at handle zero. -/
def gattDbClearRange (db : GattDb) (startHandle endHandle : ℕ) : Option GattDb :=
  if startHandle > endHandle then none
  else
    let services := if startHandle = 1 ∧ endHandle = 65535 then []
      else db.services.filter fun service => ¬matchRange startHandle endHandle service
    some ⟨if services.isEmpty then 0 else db.nextHandle, services⟩

/-- A call that changes the database. The handle of an attribute is zero if it is
    added and not inserted. -/
inductive DbOp
  | addService (uuid : Uuid) (primary : Bool) (numHandles : ℕ)
  | insertService (handle : ℕ) (uuid : Uuid) (primary : Bool) (numHandles : ℕ)
  | characteristic (service handle : ℕ) (uuid : Uuid) (permissions properties : ℕ)
      (readFunc : Option ReadFunc) (writeFunc : Option WriteFunc)
  | descriptor (service handle : ℕ) (uuid : Uuid) (permissions : ℕ) (readFunc : Option ReadFunc)
      (writeFunc : Option WriteFunc)
  | included (service handle other : ℕ)
  | setActive (service : ℕ) (active : Bool)
  | removeService (service : ℕ)
  | clearRange (startHandle endHandle : ℕ)

/-- The service behind a pointer. -/
def GattDb.serviceAt (db : GattDb) (service : ℕ) : Option Service :=
  db.services.find? fun s => s.declaration.handle = service

/-- What a call returns, if it succeeds: the handle of what is new, and the
    database after it. -/
def GattDb.apply (db : GattDb) : DbOp → Option (GattDb × ℕ)
  | .addService uuid primary numHandles =>
    gattDbInsertService db db.nextHandle uuid primary numHandles
  | .insertService handle uuid primary numHandles =>
    gattDbInsertService db handle uuid primary numHandles
  | .characteristic service handle uuid permissions properties readFunc writeFunc =>
    db.extendService service fun s =>
      serviceInsertCharacteristic s handle uuid permissions properties readFunc writeFunc
  | .descriptor service handle uuid permissions readFunc writeFunc =>
    db.extendService service fun s =>
      serviceInsertDescriptor s handle uuid permissions readFunc writeFunc
  | .included service handle other => do
    let included ← db.serviceAt other
    db.extendService service fun s => serviceInsertIncluded s handle included
  | .setActive service active => some (gattDbServiceSetActive db service active, service)
  | .removeService service => some (gattDbRemoveService db service, service)
  | .clearRange startHandle endHandle =>
    (gattDbClearRange db startHandle endHandle).map fun db => (db, startHandle)

/-- The database under a sequence of calls. A call that fails changes nothing. -/
def dbMachine : StepMachine GattDb DbOp (Option ℕ) where
  step db op := match db.apply op with
    | some (db, handle) => ([some handle], some db)
    | none => ([none], some db)

end Wallclock
