import Wallclock.Core.AttTypes
import Wallclock.Core.Resources
import Wallclock.Library.Heap

/-!
# Creating the Server

`server_create` of `server.c` once more, with the blocks of memory it
allocates and the pointers between them.

The state is the heap, the table of descriptors and the table of the main
loop. An entry of the latter is named by its descriptor and leads to the
transport whose `struct io` it belongs to; the two are one block here, and so
are a queue and the object it belongs to. What a pointer is used for must be a
live block of the right kind, and null where the source tests for it; anything
else is recorded as a fault of the heap.

Every step can fail that the source tests for failure, also those of which the
library of this commit always makes a success. The steps of `populate_db` are
the calls that it tests, in their order. A step that fails has added nothing
that carries a pointer to the server.

`device_name` points to a string literal, which is static storage.

## Main definitions

* `Notify`, `Transport`, `Db`, `Gatt`, `Object`: The objects on the heap.
* `World`: The state.
* `ioNew`, `ioDestroy`: The transport's entry in the main loop.
* `btAttNew`, `btAttRef`, `btAttUnref`, `btAttFree`, `btAttSetCloseOnUnref`,
  `btAttRegisterDisconnect`, `btAttRegister`, `btAttUnregister`: The transport.
* `gattDbNew`, `gattDbRef`, `gattDbUnref`: The database.
* `gattServerRegisterAttHandlers`, `btGattServerFree`, `btGattServerNew`: The
  GATT server.
* `Step`, `populateGapService`, `populateGattService`,
  `populateClockReadService`, `populateClockWriteService`: The steps of
  `populate_db`.
* `runSteps`, `populateDb`: `populate_db`.
* `Outcome`: How the calls end.
* `Fields`, `fail`: The fields of the server that the label `fail` reads.
* `serverCreate`: `server_create`.
-/

namespace Wallclock.Creation

open Descriptor

/-- `struct att_notify`. The user data is a GATT server. -/
structure Notify where
  id : ℕ
  opcode : ℕ
  userData : Pointer
deriving DecidableEq

/-- `struct bt_att`. A disconnect callback is its identifier. -/
structure Transport extends Att where
  nextRegId : ℕ
  notifyList : List Notify
  disconnList : List ℕ
deriving DecidableEq

/-- The transport that `new0` makes. -/
def Transport.zero : Transport := ⟨⟨0, none, none⟩, 0, [], []⟩

/-- `struct gatt_db`: the `user_data` of its attributes, in their order. -/
structure Db where
  refCount : ℕ
  userData : List Pointer
deriving DecidableEq

/-- `struct bt_gatt_server`, and the identifiers of its handlers. -/
structure Gatt where
  refCount : ℕ
  db : Pointer
  att : Pointer
  ids : List ℕ
deriving DecidableEq

inductive Object
  | server
  | att (att : Transport)
  | db (db : Db)
  | gatt (gatt : Gatt)
deriving DecidableEq

structure World where
  heap : Heap Object
  table : Table
  mainloop : ℕ → Option ℕ

namespace World

/-- Allocate a block. -/
def new (A : Allocator) (x : Object) (w : World) : ℕ × World :=
  (w.heap.next A, { w with heap := w.heap.alloc A x })

def put (w : World) (a : ℕ) (x : Object) : World := { w with heap := w.heap.put a x }

def free (w : World) (p : Pointer) : World := { w with heap := w.heap.free p }

def misuse (w : World) (p : Pointer) : World := { w with heap := w.heap.misuse p }

end World

section Transport

variable (K A : Allocator)

/-- `io_new`: the new entry of the main loop replaces what was there. -/
def ioNew (a fd : ℕ) (epollFd : Option ℕ) (addFd : Bool) (w : World) : Option Io × World :=
  match Wallclock.ioNew fd epollFd addFd with
  | none => (none, w)
  | some io => (some io, { w with mainloop := Function.update w.mainloop fd (some a) })

/-- `io_destroy`: the entry is removed, and `io_cleanup` called if there was
    one. -/
def ioDestroy (io : Option Io) (w : World) : World :=
  match io with
  | none => w
  | some io =>
    match w.mainloop io.fd with
    | none => w
    | some _ => { w with
        mainloop := Function.update w.mainloop io.fd none
        table := Wallclock.ioDestroy (some io) w.table }

def btAttFree (a : ℕ) (att : Transport) (w : World) : World :=
  let w := ioDestroy att.io w
  { w with table := btCryptoUnref att.crypto w.table }.free (.block a)

def btAttRef (att : Pointer) (w : World) : World :=
  match att, w.heap.get att with
  | .null, _ => w
  | .block a, some (.att t) => w.put a (.att { t with refCount := t.refCount + 1 })
  | att, _ => w.misuse att

def btAttUnref (att : Pointer) (w : World) : World :=
  match att, w.heap.get att with
  | .null, _ => w
  | .block a, some (.att t) =>
    let t := { t with refCount := t.refCount - 1 }
    if t.refCount ≠ 0 then w.put a (.att t)
    -- `bt_att_unregister_all` empties the two lists.
    else btAttFree a { t with notifyList := [], disconnList := [] } w
  | att, _ => w.misuse att

def btAttNew (o : AttOutcome) (fd : ℕ) (epollFd : Option ℕ) (w : World) : Pointer × World :=
  let (a, w) := w.new A (.att .zero)
  match ioNew a fd epollFd o.addFd w with
  | (none, w) => (.null, btAttFree a .zero w)
  | (some io, w) =>
    let (crypto, table) := btCryptoNew K o.crypto w.table
    let t : Transport := { Transport.zero with io := some io, crypto := crypto }
    let w := { w with table := table }.put a (.att t)
    if !o.readHandler then (.null, btAttFree a t w)
    else if !o.disconnectHandler then (.null, btAttFree a t w)
    else if !o.mtu then (.null, btAttFree a t w)
    else if !o.buf then (.null, btAttFree a t w)
    else (.block a, btAttRef (.block a) w)

/-- `bt_att_set_close_on_unref(att, true)`. -/
def btAttSetCloseOnUnref (att : Pointer) (ok : Bool) (w : World) : Bool × World :=
  match att, w.heap.get att with
  | .null, _ => (false, w)
  | .block a, some (.att t) =>
    if t.io = none ∨ !ok then (false, w)
    else (true, w.put a (.att { t with
      io := t.io.map fun io => { io with closeOnDestroy := true } }))
  | att, _ => (false, w.misuse att)

/-- The next identifier, which is never zero. -/
def Transport.takeId (t : Transport) : ℕ × Transport :=
  let id := if t.nextRegId < 1 then 1 else t.nextRegId
  (id, { t with nextRegId := id + 1 })

def btAttRegisterDisconnect (att : Pointer) (ok : Bool) (w : World) : ℕ × World :=
  match att, w.heap.get att with
  | .null, _ => (0, w)
  | .block a, some (.att t) =>
    if t.io = none then (0, w)
    else
      let (id, t) := t.takeId
      if !ok then (0, w.put a (.att t))
      else (id, w.put a (.att { t with disconnList := t.disconnList ++ [id] }))
  | att, _ => (0, w.misuse att)

def btAttRegister (att : Pointer) (opcode : ℕ) (userData : Pointer) (ok : Bool) (w : World) :
    ℕ × World :=
  match att, w.heap.get att with
  | .null, _ => (0, w)
  | .block a, some (.att t) =>
    if t.io = none then (0, w)
    else
      let (id, t) := t.takeId
      if !ok then (0, w.put a (.att t))
      else (id, w.put a (.att { t with notifyList := t.notifyList ++ [⟨id, opcode, userData⟩] }))
  | att, _ => (0, w.misuse att)

def btAttUnregister (att : Pointer) (id : ℕ) (w : World) : World :=
  match att, w.heap.get att with
  | .null, _ => w
  | .block a, some (.att t) =>
    if id = 0 then w
    else w.put a (.att { t with notifyList := t.notifyList.eraseP (·.id = id) })
  | att, _ => w.misuse att

end Transport

section Database

variable (A : Allocator)

def gattDbRef (db : Pointer) (w : World) : World :=
  match db, w.heap.get db with
  | .null, _ => w
  | .block d, some (.db s) => w.put d (.db { s with refCount := s.refCount + 1 })
  | db, _ => w.misuse db

def gattDbUnref (db : Pointer) (w : World) : World :=
  match db, w.heap.get db with
  | .null, _ => w
  | .block d, some (.db s) =>
    let s := { s with refCount := s.refCount - 1 }
    if s.refCount ≠ 0 then w.put d (.db s) else w.free db
  | db, _ => w.misuse db

def gattDbNew (ok : Bool) (w : World) : Pointer × World :=
  if !ok then (.null, w)
  else
    let (d, w) := w.new A (.db ⟨0, []⟩)
    (.block d, gattDbRef (.block d) w)

end Database

section Server

variable (A : Allocator)

/-- The opcodes that `gatt_server_register_att_handlers` registers for. -/
def attHandlers : List ℕ :=
  [btAttOpMtuReq, btAttOpReadByGrpTypeReq, btAttOpReadByTypeReq, btAttOpFindInfoReq,
    btAttOpFindByTypeReq, btAttOpWriteReq, btAttOpWriteCmd, btAttOpReadReq, btAttOpReadBlobReq,
    btAttOpReadMultReq, btAttOpPrepWriteReq, btAttOpExecWriteReq]

/-- `gatt_server_register_att_handlers`, of which the first `ok` registrations
    succeed: whether all do, and the server with its identifiers. -/
def gattServerRegisterAttHandlers (g : ℕ) :
    List ℕ → ℕ → Gatt → World → Bool × Gatt × World
  | [], _, s, w => (true, s, w)
  | opcode :: opcodes, ok, s, w =>
    let (id, w) := btAttRegister s.att opcode (.block g) (decide (0 < ok)) w
    let s := { s with ids := s.ids ++ [id] }
    if id = 0 then (false, s, w)
    else gattServerRegisterAttHandlers g opcodes (ok - 1) s w

def btGattServerFree (g : ℕ) (s : Gatt) (w : World) : World :=
  let w := s.ids.foldl (fun w id => btAttUnregister s.att id w) w
  let w := gattDbUnref s.db w
  let w := btAttUnref s.att w
  w.free (.block g)

/-- `bt_gatt_server_new`, of whose registrations the first `ok` succeed. -/
def btGattServerNew (db att : Pointer) (ok : ℕ) (w : World) : Pointer × World :=
  if att = .null ∨ db = .null then (.null, w)
  else
    let s : Gatt := ⟨0, db, att, []⟩
    let (g, w) := w.new A (.gatt s)
    let w := gattDbRef db w
    let w := btAttRef att w
    match gattServerRegisterAttHandlers g attHandlers ok s w with
    | (false, s, w) => (.null, btGattServerFree g s w)
    | (true, s, w) => (.block g, w.put g (.gatt { s with refCount := s.refCount + 1 }))

end Server

/-- A call of `populate_db` that is tested for failure. The user data of an
    attribute is the server or null. -/
inductive Step
  | addService
  | addCharacteristic (userData : Bool)
  | attributeWrite
  | addDescriptor (userData : Bool)

/-- The user data of the attributes that a step adds. A characteristic is its
    declaration and its value. -/
def Step.added (server : ℕ) : Step → List Pointer
  | .addService => [.null]
  | .addCharacteristic userData => [.null, if userData then .block server else .null]
  | .attributeWrite => []
  | .addDescriptor userData => [if userData then .block server else .null]

def populateGapService : List Step :=
  [.addService, .addCharacteristic true, .attributeWrite, .addCharacteristic true,
    .attributeWrite, .addCharacteristic true, .attributeWrite]

def populateGattService : List Step :=
  [.addService, .addCharacteristic true, .addDescriptor true]

def populateClockReadService : List Step :=
  [.addService, .addCharacteristic false, .addDescriptor true]

def populateClockWriteService : List Step :=
  [.addService, .addCharacteristic true]

/-- Steps on the database, of which the first `ok` succeed. -/
def runSteps (server : ℕ) (db : Pointer) : List Step → ℕ → World → Bool × World
  | [], _, w => (true, w)
  | step :: steps, ok, w =>
    match db, w.heap.get db with
    | .block d, some (.db s) =>
      if ok = 0 then (false, w)
      else runSteps server db steps (ok - 1)
        (w.put d (.db { s with userData := s.userData ++ step.added server }))
    | db, _ => (false, w.misuse db)

def populateSteps : List Step :=
  populateGapService ++ populateGattService ++ populateClockReadService ++
    populateClockWriteService

def populateDb (server : ℕ) (db : Pointer) (ok : ℕ) (w : World) : Bool × World :=
  runSteps server db populateSteps ok w

/-- Which calls of `server_create` succeed: the allocation of the server, those
    of `bt_att_new`, the three that follow, how many registrations of the GATT
    server, and how many steps of `populate_db`. -/
structure Outcome where
  server : Bool
  att : AttOutcome
  closeOnUnref : Bool
  registerDisconnect : Bool
  db : Bool
  handlers : ℕ
  steps : ℕ
deriving DecidableEq

/-- The fields of `struct server` that the label `fail` reads. -/
structure Fields where
  att : Pointer
  db : Pointer
  deviceName : Pointer

/-- The code at the label `fail`. -/
def fail (server : ℕ) (s : Fields) (w : World) : World :=
  let w := gattDbUnref s.db w
  let w := w.free s.deviceName
  let w := btAttUnref s.att w
  w.free (.block server)

/-- `server_create`. The fields start as `new0` makes them. -/
def serverCreate (K A : Allocator) (o : Outcome) (fd : ℕ) (epollFd : Option ℕ) (w : World) :
    Pointer × World :=
  if !o.server then (.null, w)
  else
    let (server, w) := w.new A .server
    match btAttNew K A o.att fd epollFd w with
    | (.null, w) => (.null, fail server ⟨.null, .null, .null⟩ w)
    | (att, w) =>
      match btAttSetCloseOnUnref att o.closeOnUnref w with
      | (false, w) => (.null, fail server ⟨att, .null, .null⟩ w)
      | (true, w) =>
        match btAttRegisterDisconnect att o.registerDisconnect w with
        | (0, w) => (.null, fail server ⟨att, .null, .null⟩ w)
        | (_, w) =>
          match gattDbNew A o.db w with
          | (.null, w) => (.null, fail server ⟨att, .null, .static⟩ w)
          | (db, w) =>
            match btGattServerNew A db att o.handlers w with
            | (.null, w) => (.null, fail server ⟨att, db, .static⟩ w)
            | (_, w) =>
              match populateDb server db o.steps w with
              | (false, w) => (.null, fail server ⟨att, db, .static⟩ w)
              | (true, w) => (.block server, w)

end Wallclock.Creation
