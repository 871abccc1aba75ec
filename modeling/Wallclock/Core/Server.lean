import Wallclock.Core.Bearer
import Wallclock.Core.GattServer

/-!
# The Server on its Bearer

The GATT server as the layer above the transport: the handlers that
`bt_gatt_server_new` registers, and the calls of the transport that a handler
makes before it returns. `server_create` registers `att_disconnect_cb` too,
which ends the main loop and makes no call. None of the server's registrations
has a destroy function.

The GATT server holds its connection, with a copy of the transmission unit. It
has no connection any more once the process has exited in `clock_command`, or
a prepared value has been copied past the end of its block.

## Main definitions

* `Opcode.code`, `Opcode.all`: The opcodes in the order of their registration.
* `ServerCallback`: The callbacks of the server.
* `Event.asCall`: The call that queues a PDU.
* `Opcode.ofByte`: The opcode that a byte stands for.
* `gattLayer`: What the callbacks do.
* `gattServerRegisterAttHandlers`, `Endpoint.served`: The new connection.
-/

namespace Wallclock

open ByteCodec

namespace Opcode

/-- The opcode of a request. -/
def code : Opcode → ℕ
  | mtuReq => btAttOpMtuReq
  | readByGrpTypeReq => btAttOpReadByGrpTypeReq
  | readByTypeReq => btAttOpReadByTypeReq
  | findInfoReq => btAttOpFindInfoReq
  | findByTypeReq => btAttOpFindByTypeReq
  | writeReq => btAttOpWriteReq
  | writeCmd => btAttOpWriteCmd
  | readReq => btAttOpReadReq
  | readBlobReq => btAttOpReadBlobReq
  | readMultReq => btAttOpReadMultReq
  | prepWriteReq => btAttOpPrepWriteReq
  | execWriteReq => btAttOpExecWriteReq

/-- The opcodes in the order in which `gatt_server_register_att_handlers`
    registers their handlers. -/
def all : List Opcode :=
  [mtuReq, readByGrpTypeReq, readByTypeReq, findInfoReq, findByTypeReq, writeReq, writeCmd,
    readReq, readBlobReq, readMultReq, prepWriteReq, execWriteReq]

/-- The opcode that a byte stands for. -/
def ofByte (opcode : UInt8) : Option Opcode := all.find? fun o => UInt8.ofNat o.code = opcode

end Opcode

/-- A callback that the server registers with the bearer: the handler of an
    opcode, or `att_disconnect_cb`. -/
inductive ServerCallback
  | handler (opcode : Opcode)
  | attDisconnectCb

/-- The call that queues a PDU. None of the server's PDUs is signed. -/
def Event.asCall : Event → Option (AttCall ServerCallback Empty)
  | .queued opcode pdu => some (.send (UInt8.ofNat opcode) pdu none none default)
  | _ => none

/-- The server above the bearer. Only `exchange_mtu_cb` changes the transmission
    unit, after its response. -/
def gattLayer : UpperLayer Env (Option Connection) ServerCallback Empty where
  react env upper _ call :=
    match upper, call with
    | some c, .notify (.handler opcode) _ pdu =>
      if size : 1 + pdu.length < 2 ^ 16 then
        let (events, next) := handleNotify c { env with opcode, pdu, size }
        let mtu := if opcode = .mtuReq ∧ pdu.length = 2 then next.map Connection.attMtu else none
        (next, events.filterMap Event.asCall ++ mtu.toList.map .setMtu)
      else (upper, [])
    | _, _ => (upper, [])

/-- `gatt_server_register_att_handlers`. -/
def gattServerRegisterAttHandlers (att : Bearer ServerCallback Empty) :
    Bearer ServerCallback Empty :=
  Opcode.all.foldl (fun att opcode =>
    (att.btAttRegister (UInt8.ofNat opcode.code) (.handler opcode) none).2) att

/-- The bearer and the server once `server_create` has succeeded. -/
def Endpoint.served (ioOnL2cap : Bool) (crypto : Option AfAlg) (c : Connection) :
    Endpoint (Option Connection) ServerCallback Empty where
  att := gattServerRegisterAttHandlers
    ((Bearer.new ioOnL2cap btAttDefaultLeMtu crypto).btAttRegisterDisconnect
      (some .attDisconnectCb) none).2
  upper := some c

end Wallclock
