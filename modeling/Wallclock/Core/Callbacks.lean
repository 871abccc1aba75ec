import Wallclock.Core.AttTypes
import Wallclock.Core.Command
import Wallclock.Library.Machine

/-!
# Application Callbacks

The attribute callbacks of `server.c`: the two client characteristic
configuration descriptors (CCC) and the characteristic the clock writes its
commands to.

A callback completes its operation synchronously, by one call of
`gatt_db_attribute_read_result` or `gatt_db_attribute_write_result`, so it is
modelled by what it passes to that call: the bytes read, or the error code of
the write. A value of `none` is the NULL pointer that a Prepare Write passes.
The callbacks are registered with a non-NULL `user_data`, so the test for a
NULL server never fires and is left out.

The two CCC write callbacks differ in the code they accept and the flag they
set, and are instances of `cccWrite`.

Two machines are built from the callbacks. `commandMachine` reads the command
payloads the write callback accepts, over any number of connections: each input
names the server structure of its connection, and only the globals survive
from one to the next. `accessMachine` reads every access to the three
attributes, with `connect` for the zeroed structure a new connection starts
from.

## Main definitions

* `Server`: The fields of `struct server` the callbacks use.
* `Notification`: A notification handed to `bt_gatt_server_send_notification`.
* `clockReadDataCb`: `clock_read_data_cb`.
* `gattServiceChangedCb`, `gattSvcChngdCccReadCb`, `clockReadDataCccReadCb`:
  The read callbacks.
* `cccWrite`: The body shared by the CCC write callbacks.
* `gattSvcChngdCccWriteCb`, `clockReadDataCccWriteCb`: Its two instances.
* `clockWriteDataWriteCbWith`: `clock_write_data_write_cb` over its call of
  `clock_command`.
* `clockWriteDataWriteCb`: The same, showing the notifications sent.
* `ClientWrite`: A command payload the write callback accepts.
* `commandMachine`: The globals under accepted command payloads.
* `App`: The server structure of the connection, and the globals.
* `Access`: An access to one of the attributes, or a new connection.
* `Reply`: What an access makes visible.
* `accessMachine`: The application under attribute accesses.
-/

namespace Wallclock

/-- The fields of `struct server` that the callbacks read and write. -/
structure Server where
  gattSvcChngdHandle : Nat
  svcChngdEnabled : Bool
  clockReadDataHandle : Nat
  clockWriteDataHandle : Nat
  clockReadDataNotify : Bool
deriving DecidableEq

structure Notification where
  handle : Nat
  value : List UInt8
deriving DecidableEq

/-- `clock_read_data_cb` sends its buffer on the data handle. It does not
    consult `clock_read_data_notify`. -/
def clockReadDataCb (server : Server) (buffer : List UInt8) : Notification :=
  ⟨server.clockReadDataHandle, buffer⟩

def gattServiceChangedCb (_server : Server) (_offset : Nat) : List UInt8 := []

def gattSvcChngdCccReadCb (server : Server) (_offset : Nat) : List UInt8 :=
  [if server.svcChngdEnabled then 0x02 else 0x00, 0x00]

def clockReadDataCccReadCb (server : Server) (_offset : Nat) : List UInt8 :=
  [if server.clockReadDataNotify then 0x01 else 0x00, 0x00]

/-- The body of the two CCC write callbacks: `on` is the first byte that sets
    the flag, `set` writes the flag. The result is the server structure and
    the error code. -/
def cccWrite (on : UInt8) (set : Bool → Server → Server) (server : Server) (offset : Nat)
    (value : Option (List UInt8)) : Server × Nat :=
  match value with
  | none => (server, btAttErrorInvalidAttributeValueLen)
  | some value =>
    if value.length ≠ 2 then (server, btAttErrorInvalidAttributeValueLen)
    else if offset ≠ 0 then (server, btAttErrorInvalidOffset)
    else if value.headD 0 = 0x00 then (set false server, 0)
    else if value.headD 0 = on then (set true server, 0)
    else (server, 0x80)

def gattSvcChngdCccWriteCb : Server → Nat → Option (List UInt8) → Server × Nat :=
  cccWrite 0x02 fun b server => { server with svcChngdEnabled := b }

def clockReadDataCccWriteCb : Server → Nat → Option (List UInt8) → Server × Nat :=
  cccWrite 0x01 fun b server => { server with clockReadDataNotify := b }

/-- `clock_write_data_write_cb`, with `command` for the call of `clock_command`:
    what that call makes visible, and then the globals and the error code
    unless the process exits inside it. -/
def clockWriteDataWriteCbWith {ε : Type} (command : List UInt8 → List ε × Option Globals)
    (g : Globals) (offset : Nat) (value : Option (List UInt8)) : List ε × Option (Globals × Nat) :=
  match value with
  | none => ([], some (g, btAttErrorInvalidAttributeValueLen))
  | some value =>
    if value.length = 0 ∨ value.length > 100 then
      ([], some (g, btAttErrorInvalidAttributeValueLen))
    else if offset ≠ 0 then ([], some (g, btAttErrorInvalidOffset))
    else
      let (sent, next) := command value
      (sent, next.map fun g => (g, 0))

/-- The callback with the notifications sent visible. -/
def clockWriteDataWriteCb (stack : Msg) (clock : Clock) (server : Server) (g : Globals) :
    Nat → Option (List UInt8) → List Notification × Option (Globals × Nat) :=
  clockWriteDataWriteCbWith (fun value =>
    let (sent, next) := clockCommand stack clock g value
    (sent.map (clockReadDataCb server), next)) g

/-- A command payload that `clock_write_data_write_cb` accepts, with the server
    structure of the connection it arrives on, the results of the time calls
    and the earlier contents of the local buffer. -/
structure ClientWrite where
  server : Server
  payload : List UInt8
  accepted : 1 ≤ payload.length ∧ payload.length ≤ 100
  clock : Clock
  stack : Msg

/-- The globals under accepted command payloads, over any connections. -/
def commandMachine : StepMachine Globals ClientWrite Notification where
  step g i :=
    let (sent, next) := clockWriteDataWriteCb i.stack i.clock i.server g 0 (some i.payload)
    (sent, next.map (·.1))

/-- What the callbacks share: the server structure of the current connection
    and the globals of the process. -/
structure App where
  server : Server
  globals : Globals
deriving DecidableEq

/-- The server structure `server_create` starts a connection with: zeroed,
    with the handles `populate_db` stores. -/
def Server.fresh (server : Server) : Server :=
  { server with svcChngdEnabled := false, clockReadDataNotify := false }

/-- An access to a callback-backed attribute, or the start of a connection. -/
inductive Access
  | connect
  | readSvcChngdCcc (offset : Nat)
  | writeSvcChngdCcc (offset : Nat) (value : Option (List UInt8))
  | readDataCcc (offset : Nat)
  | writeDataCcc (offset : Nat) (value : Option (List UInt8))
  | writeData (offset : Nat) (value : Option (List UInt8)) (clock : Clock) (stack : Msg)

/-- What an access makes visible: the bytes read, the error code of a write,
    or a notification. -/
inductive Reply
  | value (bytes : List UInt8)
  | written (ecode : Nat)
  | notified (n : Notification)
deriving DecidableEq

/-- The application under attribute accesses. -/
def accessMachine : StepMachine App Access Reply where
  step a
    | .connect => ([], some { a with server := a.server.fresh })
    | .readSvcChngdCcc offset => ([.value (gattSvcChngdCccReadCb a.server offset)], some a)
    | .writeSvcChngdCcc offset value =>
      let (server, ecode) := gattSvcChngdCccWriteCb a.server offset value
      ([.written ecode], some { a with server })
    | .readDataCcc offset => ([.value (clockReadDataCccReadCb a.server offset)], some a)
    | .writeDataCcc offset value =>
      let (server, ecode) := clockReadDataCccWriteCb a.server offset value
      ([.written ecode], some { a with server })
    | .writeData offset value clock stack =>
      match clockWriteDataWriteCb stack clock a.server a.globals offset value with
      | (sent, none) => (sent.map .notified, none)
      | (sent, some (globals, ecode)) =>
        (sent.map .notified ++ [.written ecode], some { a with globals })

end Wallclock
