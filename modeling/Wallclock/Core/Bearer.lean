import Wallclock.Core.AttTypes
import Wallclock.Core.Crypto
import Wallclock.Library.Machine

/-!
# The Attribute Bearer

The transport of `att.c`: the queues of PDUs that wait to be sent, the request
and the indication that wait for an answer, the handlers of incoming PDUs, and
what a disconnect does to all of them.

A callback with its user data is a value of `κ`, and a destroy function with
its user data a value of `δ`. A callback may call the transport again, which
the `UpperLayer` decides: it answers an upcall with the calls it
makes before it returns. It sees the bearer, as the calls it makes return
results from which their caller could know it. A callback may send, cancel,
remove a disconnect handler and set the transmission unit, the security level,
the key size and the keys. All else, such as registering a handler or giving up
a reference, is done between two events of the main loop, and a destroy function
makes no calls.

The step function reads what the main loop reports: the socket can be read or
written, a timer runs out, the link is gone. Allocations, timers and changes
to the main loop's table succeed. After a disconnect `att->io` is NULL, which
the field `io` says.

## Main definitions

* `AttOpType`, `getOpType`, `getReqOpcode`: The tables of opcodes.
* `AttSendOp`, `AttNotify`, `AttDisconn`, `SignInfo`, `Bearer`: The state.
* `Packet`: What does not change of an operation.
* `Upcall`, `Uninit`, `AttCall`, `UpperLayer`: The layer above.
* `BearerEvent`: What a step makes visible.
* `Encoded`, `encodePdu`, `createAttSendOp`, `btAttSend`: Sending.
* `wakeupWriter`, `pickNextSendOp`, `canWriteData`: Writing to the socket.
* `handleRsp`, `handleConf`, `handleSigned`, `handleNotify`, `canReadData`:
  Reading from it.
* `btAttCancel`, `btAttCancelAll`: Cancelling.
* `timeoutCb`, `disconnectCb`: The ends of an operation without an answer.
* `bearerMachine`: The bearer under what the main loop reports.
-/

namespace Wallclock

open ByteCodec

/-- `enum att_op_type`. -/
inductive AttOpType
  | req
  | rsp
  | cmd
  | ind
  | not
  | conf
  | unknown
deriving DecidableEq

/-- `att_opcode_type_table`. -/
def attOpcodeTypeTable : List (ℕ × AttOpType) :=
  [(btAttOpErrorRsp, .rsp), (btAttOpMtuReq, .req), (btAttOpMtuRsp, .rsp),
    (btAttOpFindInfoReq, .req), (btAttOpFindInfoRsp, .rsp), (btAttOpFindByTypeReq, .req),
    (btAttOpFindByTypeRsp, .rsp), (btAttOpReadByTypeReq, .req), (btAttOpReadByTypeRsp, .rsp),
    (btAttOpReadReq, .req), (btAttOpReadRsp, .rsp), (btAttOpReadBlobReq, .req),
    (btAttOpReadBlobRsp, .rsp), (btAttOpReadMultReq, .req), (btAttOpReadMultRsp, .rsp),
    (btAttOpReadByGrpTypeReq, .req), (btAttOpReadByGrpTypeRsp, .rsp), (btAttOpWriteReq, .req),
    (btAttOpWriteRsp, .rsp), (btAttOpWriteCmd, .cmd), (btAttOpSignedWriteCmd, .cmd),
    (btAttOpPrepWriteReq, .req), (btAttOpPrepWriteRsp, .rsp), (btAttOpExecWriteReq, .req),
    (btAttOpExecWriteRsp, .rsp), (btAttOpHandleValNot, .not), (btAttOpHandleValInd, .ind),
    (btAttOpHandleValConf, .conf)]

/-- Whether the bit `ATT_OP_CMD_MASK` is set. -/
def isCmd (opcode : UInt8) : Bool := opcode &&& 0x40 ≠ 0

/-- Whether the bit `ATT_OP_SIGNED_MASK` is set. -/
def isSigned (opcode : UInt8) : Bool := opcode &&& 0x80 ≠ 0

def getOpType (opcode : UInt8) : AttOpType :=
  match attOpcodeTypeTable.lookup opcode.toNat with
  | some type => type
  | none => if isCmd opcode then .cmd else .unknown

/-- `att_req_rsp_mapping_table`. -/
def attReqRspMappingTable : List (ℕ × ℕ) :=
  [(btAttOpMtuReq, btAttOpMtuRsp), (btAttOpFindInfoReq, btAttOpFindInfoRsp),
    (btAttOpFindByTypeReq, btAttOpFindByTypeRsp), (btAttOpReadByTypeReq, btAttOpReadByTypeRsp),
    (btAttOpReadReq, btAttOpReadRsp), (btAttOpReadBlobReq, btAttOpReadBlobRsp),
    (btAttOpReadMultReq, btAttOpReadMultRsp), (btAttOpReadByGrpTypeReq, btAttOpReadByGrpTypeRsp),
    (btAttOpWriteReq, btAttOpWriteRsp), (btAttOpPrepWriteReq, btAttOpPrepWriteRsp),
    (btAttOpExecWriteReq, btAttOpExecWriteRsp)]

/-- `get_req_opcode`, zero if the opcode is not in the table. -/
def getReqOpcode (rspOpcode : UInt8) : UInt8 :=
  match attReqRspMappingTable.find? (·.2 = rspOpcode.toNat) with
  | some (reqOpcode, _) => UInt8.ofNat reqOpcode
  | none => 0

/-- `BT_ATT_SIGNATURE_LEN`. -/
def btAttSignatureLen : ℕ := 12

/-- `struct att_send_op`. The field `timeoutId` says whether a timer is
    outstanding, whose data is the operation's identifier. -/
structure AttSendOp (κ δ : Type*) where
  id : BitVec 32
  timeoutId : Bool
  type : AttOpType
  opcode : UInt8
  pdu : List UInt8
  callback : Option κ
  destroy : Option δ

/-- What does not change in the life of an operation. -/
structure Packet where
  id : BitVec 32
  type : AttOpType
  pdu : List UInt8
deriving DecidableEq

def AttSendOp.packet {κ δ : Type*} (op : AttSendOp κ δ) : Packet := ⟨op.id, op.type, op.pdu⟩

/-- `struct att_notify`. -/
structure AttNotify (κ δ : Type*) where
  id : BitVec 32
  opcode : UInt8
  callback : κ
  destroy : Option δ

/-- `struct att_disconn`. -/
structure AttDisconn (κ δ : Type*) where
  id : BitVec 32
  removed : Bool
  callback : Option κ
  destroy : Option δ

/-- `struct sign_info`: the counter function is given the value that it may
    check or replace. -/
structure SignInfo where
  key : List UInt8
  counter : BitVec 32 → Option (BitVec 32)

/-- `struct bt_att`. The main loop calls `can_read_data` as long as
    `reading` holds. -/
structure Bearer (κ δ : Type*) where
  io : Bool
  reading : Bool
  ioOnL2cap : Bool
  ioSecLevel : ℤ
  encSize : ℕ
  reqQueue : List (AttSendOp κ δ)
  pendingReq : Option (AttSendOp κ δ)
  indQueue : List (AttSendOp κ δ)
  pendingInd : Option (AttSendOp κ δ)
  writeQueue : List (AttSendOp κ δ)
  writerActive : Bool
  notifyList : List (AttNotify κ δ)
  disconnList : List (AttDisconn κ δ)
  inReq : Bool
  mtu : ℕ
  nextSendId : BitVec 32
  nextRegId : BitVec 32
  timeoutCallback : Option κ
  timeoutDestroy : Option δ
  crypto : Option AfAlg
  localSign : Option SignInfo
  remoteSign : Option SignInfo

/-- A call of a callback. -/
inductive Upcall (κ : Type*)
  | response (callback : κ) (opcode : UInt8) (pdu : List UInt8)
  | notify (callback : κ) (opcode : UInt8) (pdu : List UInt8)
  | disconnect (callback : κ) (err : ℤ)
  | timeout (callback : κ) (id : BitVec 32) (opcode : UInt8)

/-- What uninitialised memory contains: a new block, and the variable for the
    counter of a signature. -/
structure Uninit where
  heap : ℕ → UInt8
  signCnt : BitVec 32
deriving Inhabited

/-- A call of the transport that a callback may make. The result of
    `setsockopt` is part of the call that asks for it, and so is what a call
    finds in memory. The length of a PDU is passed in 16 bits. -/
inductive AttCall (κ δ : Type*)
  | send (opcode : UInt8) (pdu : List UInt8) (callback : Option κ) (destroy : Option δ)
    (uninit : Uninit)
  | cancel (id : BitVec 32)
  | cancelAll
  | unregisterDisconnect (id : BitVec 32)
  | setMtu (mtu : ℕ)
  | setSecurity (level : ℤ) (accepted : Bool)
  | setEncKeySize (encSize : ℕ)
  | setLocalKey (sign : SignInfo)
  | setRemoteKey (sign : SignInfo)

/-- The layer above: how it answers an upcall, in an environment. -/
structure UpperLayer (ε σ κ δ : Type*) where
  react : ε → σ → Bearer κ δ → Upcall κ → σ × List (AttCall κ δ)

/-- What a step makes visible. An operation is accepted by `bt_att_send`, sent
    on the socket and in the end freed. `overflow` is an access past the end
    of a PDU's block, behind which nothing is modelled; the call goes on. -/
inductive BearerEvent (κ δ : Type*)
  | accepted (op : AttSendOp κ δ)
  | sent (packet : Packet)
  | freed (packet : Packet)
  | registered (destroy : Option δ)
  | destroyed (destroy : δ)
  | received (pdu : List UInt8)
  | upcall (call : Upcall κ)
  | shutdown
  | overflow

/-- The bearer and the layer above. -/
structure Endpoint (σ κ δ : Type*) where
  att : Bearer κ δ
  upper : σ

/-- The link's security level, negative if it cannot be read, and whether the
    kernel accepts a new one. -/
structure Link where
  security : ℤ
  accepted : Bool

/-- A call of a destroy function, if there is one. -/
def destroyEvents {κ δ : Type*} (destroy : Option δ) : List (BearerEvent κ δ) :=
  destroy.toList.map .destroyed

namespace Bearer

variable {ε σ κ δ : Type*}

/-- `destroy_att_send_op`. -/
def destroyAttSendOp (op : AttSendOp κ δ) : List (BearerEvent κ δ) :=
  destroyEvents op.destroy ++ [.freed op.packet]

/-- `cancel_att_send_op`: the operation stays, without its functions. -/
def cancelAttSendOp (op : AttSendOp κ δ) : List (BearerEvent κ δ) × AttSendOp κ δ :=
  (destroyEvents op.destroy, { op with callback := none, destroy := none })

/-- What `encode_pdu` makes of a PDU: whether it goes past the end of the block
    it allocates, and the bytes of that block, unless it refuses the PDU. -/
structure Encoded where
  overflow : Bool
  pdu : Option (List UInt8)

def encodePdu (att : Bearer κ δ) (opcode : UInt8) (pdu : List UInt8) (uninit : Uninit) : Encoded :=
  let signature := if att.localSign.isSome ∧ isSigned opcode then btAttSignatureLen else 0
  -- The length of the block has 16 bits.
  let pduLen := (1 + signature + pdu.length) % 2 ^ 16
  if pduLen > att.mtu then ⟨false, none⟩
  else
    -- The opcode is always written, and the rest where the block has more than one byte.
    let overflow : Bool := pduLen < 1 ∨ pduLen > 1 ∧ pduLen < 1 + pdu.length
    match att.localSign, att.crypto with
    | some sign, some crypto =>
      if ¬isSigned opcode then ⟨overflow, some ((opcode :: pdu).take pduLen)⟩
      else match sign.counter uninit.signCnt with
        | none => ⟨overflow, none⟩
        | some signCnt =>
          -- All that should have been written is signed, and the signature goes behind it.
          let overflow : Bool := pduLen < 1 + pdu.length + btAttSignatureLen
          match crypto.btCryptoSignAtt sign.key (opcode :: pdu) signCnt with
          | none => ⟨overflow, none⟩
          | some signature => ⟨overflow, some ((opcode :: pdu ++ signature).take pduLen)⟩
    -- Without crypto the bytes of the signature are left as they were.
    | _, _ => ⟨overflow, some ((opcode :: pdu ++
        (List.range signature).map fun i => uninit.heap (1 + pdu.length + i)).take pduLen)⟩

/-- `create_att_send_op`, before the operation has an identifier. -/
def createAttSendOp (att : Bearer κ δ) (opcode : UInt8) (pdu : List UInt8) (callback : Option κ)
    (destroy : Option δ) (uninit : Uninit) : List (BearerEvent κ δ) × Option (AttSendOp κ δ) :=
  let type := getOpType opcode
  let elicits : Bool := type = .req ∨ type = .ind
  if type = .unknown ∨ callback.isSome ≠ elicits then ([], none)
  else
    let encoded := att.encodePdu opcode pdu uninit
    (if encoded.overflow then [.overflow] else [],
      encoded.pdu.map fun pdu => ⟨0, false, type, opcode, pdu, callback, destroy⟩)

/-- `wakeup_writer`. -/
def wakeupWriter (att : Bearer κ δ) : Bearer κ δ :=
  if att.writerActive then att
  else if att.writeQueue.isEmpty ∧ (att.pendingReq.isSome ∨ att.reqQueue.isEmpty) ∧
      (att.pendingInd.isSome ∨ att.indQueue.isEmpty) then att
  else if ¬att.io then att
  else { att with writerActive := true }

/-- The operation goes to the queue for its type. -/
def enqueue (att : Bearer κ δ) (op : AttSendOp κ δ) : Bearer κ δ :=
  match op.type with
  | .req => { att with reqQueue := att.reqQueue ++ [op] }
  | .ind => { att with indQueue := att.indQueue ++ [op] }
  | _ => { att with writeQueue := att.writeQueue ++ [op] }

def btAttSend (att : Bearer κ δ) (opcode : UInt8) (pdu : List UInt8) (callback : Option κ)
    (destroy : Option δ) (uninit : Uninit) : List (BearerEvent κ δ) × Bearer κ δ :=
  if ¬att.io then ([], att)
  else match att.createAttSendOp opcode pdu callback destroy uninit with
    | (events, none) => (events, att)
    | (events, some op) =>
      let id := if att.nextSendId < 1 then 1 else att.nextSendId
      let op := { op with id }
      (events ++ [.accepted op], ({ att with nextSendId := id + 1 }.enqueue op).wakeupWriter)

/-- `queue_remove_if` with `match_op_id`. -/
def removeOp (id : BitVec 32) (queue : List (AttSendOp κ δ)) :
    Option (AttSendOp κ δ × List (AttSendOp κ δ)) := do
  let op ← queue.find? (·.id = id)
  some (op, queue.eraseP (·.id = id))

/-- The pending operation without its functions. -/
def cancelPending (op : Option (AttSendOp κ δ)) :
    List (BearerEvent κ δ) × Option (AttSendOp κ δ) :=
  match op with
  | none => ([], none)
  | some op => ((cancelAttSendOp op).1, some (cancelAttSendOp op).2)

def btAttCancel (att : Bearer κ δ) (id : BitVec 32) : List (BearerEvent κ δ) × Bearer κ δ :=
  if id = 0 then ([], att)
  else if att.pendingReq.any (·.id = id) then
    ((cancelPending att.pendingReq).1, { att with pendingReq := (cancelPending att.pendingReq).2 })
  else if att.pendingInd.any (·.id = id) then
    ((cancelPending att.pendingInd).1, { att with pendingInd := (cancelPending att.pendingInd).2 })
  else match removeOp id att.reqQueue with
    | some (op, reqQueue) => (destroyAttSendOp op, { att with reqQueue }.wakeupWriter)
    | none => match removeOp id att.indQueue with
      | some (op, indQueue) => (destroyAttSendOp op, { att with indQueue }.wakeupWriter)
      | none => match removeOp id att.writeQueue with
        | some (op, writeQueue) => (destroyAttSendOp op, { att with writeQueue }.wakeupWriter)
        | none => ([], att)

def btAttCancelAll (att : Bearer κ δ) : List (BearerEvent κ δ) × Bearer κ δ :=
  ((att.reqQueue ++ att.indQueue ++ att.writeQueue).flatMap destroyAttSendOp ++
      (cancelPending att.pendingReq).1 ++ (cancelPending att.pendingInd).1,
    { att with
      reqQueue := []
      indQueue := []
      writeQueue := []
      pendingReq := (cancelPending att.pendingReq).2
      pendingInd := (cancelPending att.pendingInd).2 })

/-- `bt_att_unregister_disconnect`. While a disconnect is handled the entry is
    only marked. -/
def btAttUnregisterDisconnect (att : Bearer κ δ) (id : BitVec 32) :
    List (BearerEvent κ δ) × Bearer κ δ :=
  if id = 0 then ([], att)
  else match att.disconnList.find? (·.id = id) with
    | none => ([], att)
    | some disconn =>
      if ¬att.io then
        let i := att.disconnList.findIdx (·.id = id)
        ([], { att with disconnList := att.disconnList.set i { disconn with removed := true } })
      else (destroyEvents disconn.destroy,
        { att with disconnList := att.disconnList.eraseP (·.id = id) })

def btAttSetMtu (att : Bearer κ δ) (mtu : ℕ) : Bearer κ δ :=
  if mtu < btAttDefaultLeMtu then att else { att with mtu }

def btAttSetSecurity (att : Bearer κ δ) (level : ℤ) (accepted : Bool) : Bool × Bearer κ δ :=
  if level < btAttSecurityAuto ∨ level > btAttSecurityHigh then (false, att)
  else if ¬att.ioOnL2cap then (true, { att with ioSecLevel := level })
  else (accepted, att)

/-- One call of the transport. -/
def perform (att : Bearer κ δ) : AttCall κ δ → List (BearerEvent κ δ) × Bearer κ δ
  | .send opcode pdu callback destroy uninit => att.btAttSend opcode pdu callback destroy uninit
  | .cancel id => att.btAttCancel id
  | .cancelAll => att.btAttCancelAll
  | .unregisterDisconnect id => att.btAttUnregisterDisconnect id
  | .setMtu mtu => ([], att.btAttSetMtu mtu)
  | .setSecurity level accepted => ([], (att.btAttSetSecurity level accepted).2)
  | .setEncKeySize encSize => ([], { att with encSize })
  | .setLocalKey sign => ([], { att with localSign := some sign })
  | .setRemoteKey sign => ([], { att with remoteSign := some sign })

/-- The calls that a callback makes, in their order. -/
def performAll (att : Bearer κ δ) : List (AttCall κ δ) → List (BearerEvent κ δ) × Bearer κ δ
  | [] => ([], att)
  | call :: calls =>
    let (events, att) := att.perform call
    let (rest, att) := att.performAll calls
    (events ++ rest, att)

end Bearer

namespace Endpoint

open Bearer

variable {ε σ κ δ : Type*} (U : UpperLayer ε σ κ δ) (env : ε)

/-- A call of a callback, with the calls that it makes. -/
def upcall (w : Endpoint σ κ δ) (call : Upcall κ) : List (BearerEvent κ δ) × Endpoint σ κ δ :=
  let (upper, calls) := U.react env w.upper w.att call
  let (events, att) := w.att.performAll calls
  (.upcall call :: events, ⟨att, upper⟩)

/-- A call of the operation's callback, if it has one. -/
def respond (w : Endpoint σ κ δ) (op : AttSendOp κ δ) (opcode : UInt8) (pdu : List UInt8) :
    List (BearerEvent κ δ) × Endpoint σ κ δ :=
  match op.callback with
  | none => ([], w)
  | some callback => w.upcall U env (.response callback opcode pdu)

/-- `disc_att_send_op` for an operation that was queued. -/
def discAttSendOp (w : Endpoint σ κ δ) (op : AttSendOp κ δ) :
    List (BearerEvent κ δ) × Endpoint σ κ δ :=
  let (events, w) := w.respond U env op (UInt8.ofNat btAttOpErrorRsp) []
  (events ++ destroyAttSendOp op, w)

/-- The operations of a queue that has been emptied, one after the other. -/
def discAll (w : Endpoint σ κ δ) : List (AttSendOp κ δ) →
    List (BearerEvent κ δ) × Endpoint σ κ δ
  | [] => ([], w)
  | op :: ops =>
    let (events, w) := w.discAttSendOp U env op
    let (rest, w) := w.discAll ops
    (events ++ rest, w)

/-- The end of the pending request: its callback is called, and the operation
    destroyed as the callback leaves it. -/
def endReq (w : Endpoint σ κ δ) (opcode : UInt8) (pdu : List UInt8) :
    List (BearerEvent κ δ) × Endpoint σ κ δ :=
  match w.att.pendingReq with
  | none => ([], w)
  | some op =>
    let (events, w) := w.respond U env op opcode pdu
    (events ++ w.att.pendingReq.toList.flatMap destroyAttSendOp,
      { w with att := { w.att with pendingReq := none } })

/-- The end of the pending indication. -/
def endInd (w : Endpoint σ κ δ) (opcode : UInt8) (pdu : List UInt8) :
    List (BearerEvent κ δ) × Endpoint σ κ δ :=
  match w.att.pendingInd with
  | none => ([], w)
  | some op =>
    let (events, w) := w.respond U env op opcode pdu
    (events ++ w.att.pendingInd.toList.flatMap destroyAttSendOp,
      { w with att := { w.att with pendingInd := none } })

end Endpoint

namespace Bearer

variable {κ δ : Type*}

/-- `pick_next_send_op`. -/
def pickNextSendOp (att : Bearer κ δ) : Option (AttSendOp κ δ × Bearer κ δ) :=
  match att.writeQueue with
  | op :: writeQueue => some (op, { att with writeQueue })
  | [] => match att.pendingReq, att.reqQueue with
    | none, op :: reqQueue => some (op, { att with reqQueue })
    | _, _ => match att.pendingInd, att.indQueue with
      | none, op :: indQueue => some (op, { att with indQueue })
      | _, _ => none

/-- `change_security`. -/
def changeSecurity (att : Bearer κ δ) (link : Link) (ecode : UInt8) : Bool × Bearer κ δ :=
  if att.ioSecLevel ≠ btAttSecurityAuto then (false, att)
  else
    let security := if att.ioOnL2cap then link.security else att.ioSecLevel
    let level : Option ℕ :=
      if ecode.toNat = btAttErrorInsufficientEncryption ∧ security < btAttSecurityMedium then
        some btAttSecurityMedium
      else if ecode.toNat = btAttErrorAuthentication then
        if security < btAttSecurityMedium then some btAttSecurityMedium
        else if security < btAttSecurityHigh then some btAttSecurityHigh
        else if security < btAttSecurityFips then some btAttSecurityFips
        else none
      else none
    match level with
    | none => (false, att)
    | some level => att.btAttSetSecurity level link.accepted

/-- `handle_signed`: whether the signature is accepted. What
    `bt_crypto_sign_att` computes replaces the signature in the PDU. -/
def handleSigned (att : Bearer κ δ) (pdu : List UInt8) : Bool :=
  if pdu.length < 2 + btAttSignatureLen then false
  else match att.remoteSign with
    | none => false
    | some sign =>
      let signed := pdu.take (pdu.length - btAttSignatureLen)
      let signature := pdu.drop (pdu.length - btAttSignatureLen)
      match sign.counter (BitVec.ofNat 32 (leNat (signature.take 4))) with
      | none => false
      | some signCnt =>
        match att.crypto with
        | none => false
        | some crypto => (crypto.btCryptoSignAtt sign.key signed signCnt).isSome

def opcodeMatch (opcode testOpcode : UInt8) : Bool :=
  opcode.toNat = btAttAllRequests ∧ (getOpType testOpcode = .req ∨ getOpType testOpcode = .cmd) ∨
    opcode = testOpcode

/-- `respond_not_supported`. An error response is not signed. -/
def respondNotSupported (att : Bearer κ δ) (opcode : UInt8) :
    List (BearerEvent κ δ) × Bearer κ δ :=
  att.btAttSend (UInt8.ofNat btAttOpErrorRsp)
    ([opcode, 0, 0] ++ leBytes 1 btAttErrorRequestNotSupported) none none default

end Bearer

namespace Endpoint

open Bearer

variable {ε σ κ δ : Type*} (U : UpperLayer ε σ κ δ) (env : ε)

/-- `can_write_data`, with whether `io_send` succeeds. -/
def canWriteData (w : Endpoint σ κ δ) (ok : Bool) : List (BearerEvent κ δ) × Endpoint σ κ δ :=
  match w.att.pickNextSendOp with
  -- The main loop forgets the handler and calls `write_watch_destroy`.
  | none => ([], { w with att := { w.att with writerActive := false } })
  | some (op, att) =>
    if ¬ok then
      let (events, w) := { w with att }.respond U env op (UInt8.ofNat btAttOpErrorRsp) []
      (events ++ destroyAttSendOp op, w)
    else match op.type with
      | .req => ([.sent op.packet],
        { w with att := { att with pendingReq := some { op with timeoutId := true } } })
      | .ind => ([.sent op.packet],
        { w with att := { att with pendingInd := some { op with timeoutId := true } } })
      | .rsp =>
        (.sent op.packet :: destroyAttSendOp op, { w with att := { att with inReq := false } })
      | _ => (.sent op.packet :: destroyAttSendOp op, { w with att })

/-- The end of an operation that has timed out, and is pending no more. -/
def expire (w : Endpoint σ κ δ) (op : AttSendOp κ δ) (att : Bearer κ δ) :
    List (BearerEvent κ δ) × Endpoint σ κ δ :=
  let (events, w) : List (BearerEvent κ δ) × Endpoint σ κ δ := match att.timeoutCallback with
    | none => ([], { w with att })
    | some callback => { w with att }.upcall U env (.timeout callback op.id op.opcode)
  (events ++ destroyAttSendOp op ++ (if w.att.io then [.shutdown] else []), w)

def timeoutCb (w : Endpoint σ κ δ) (id : BitVec 32) : List (BearerEvent κ δ) × Endpoint σ κ δ :=
  match w.att.pendingReq.filter (fun op => op.timeoutId ∧ op.id = id) with
  | some op => w.expire U env op { w.att with pendingReq := none }
  | none => match w.att.pendingInd.filter (fun op => op.timeoutId ∧ op.id = id) with
    | some op => w.expire U env op { w.att with pendingInd := none }
    | none => ([], w)

/-- `handle_error_rsp`: the opcode it reports, and the bearer if the request is
    retried. -/
def handleErrorRsp (att : Bearer κ δ) (op : AttSendOp κ δ) (link : Link) (pdu : List UInt8) :
    UInt8 × Bearer κ δ × Bool :=
  match pdu with
  | [opcode, _, _, ecode] =>
    match att.changeSecurity link ecode with
    | (false, att) => (opcode, att, false)
    | (true, att) => (opcode, { att with
        pendingReq := none
        reqQueue := { op with timeoutId := false } :: att.reqQueue }, true)
  | _ => (0, att, false)

/-- The end of `handle_rsp` from the label `done` on. -/
def finishRsp (w : Endpoint σ κ δ) (rspOpcode : UInt8) (rspPdu : List UInt8) :
    List (BearerEvent κ δ) × Endpoint σ κ δ :=
  let (events, w) := w.endReq U env rspOpcode rspPdu
  (events, { w with att := w.att.wakeupWriter })

/-- The end of `handle_rsp` from the label `fail` on. -/
def failRsp (w : Endpoint σ κ δ) : List (BearerEvent κ δ) × Endpoint σ κ δ :=
  w.finishRsp U env (UInt8.ofNat btAttOpErrorRsp) []

def handleRsp (w : Endpoint σ κ δ) (link : Link) (opcode : UInt8) (pdu : List UInt8) :
    List (BearerEvent κ δ) × Endpoint σ κ δ :=
  match w.att.pendingReq with
  | none => ([.shutdown], w)
  | some op =>
    if opcode.toNat = btAttOpErrorRsp then
      match handleErrorRsp w.att op link pdu with
      | (_, att, true) => ([], { w with att := att.wakeupWriter })
      | (reqOpcode, att, false) =>
        if reqOpcode ≠ op.opcode then { w with att }.failRsp U env
        else { w with att }.finishRsp U env opcode pdu
    else if getReqOpcode opcode = 0 ∨ getReqOpcode opcode ≠ op.opcode then w.failRsp U env
    else w.finishRsp U env opcode pdu

def handleConf (w : Endpoint σ κ δ) (pdu : List UInt8) :
    List (BearerEvent κ δ) × Endpoint σ κ δ :=
  if w.att.pendingInd.isNone ∨ pdu.length ≠ 0 then ([.shutdown], w)
  else
    let (events, w) := w.endInd U env (UInt8.ofNat btAttOpHandleValConf) []
    (events, { w with att := w.att.wakeupWriter })

/-- The handlers that match a PDU, one after the other. -/
def notifyAll (w : Endpoint σ κ δ) (opcode : UInt8) (pdu : List UInt8) :
    List (AttNotify κ δ) → List (BearerEvent κ δ) × Endpoint σ κ δ
  | [] => ([], w)
  | notify :: list =>
    if ¬opcodeMatch notify.opcode opcode then w.notifyAll opcode pdu list
    else
      let (events, w) := w.upcall U env (.notify notify.callback opcode pdu)
      let (rest, w) := w.notifyAll opcode pdu list
      (events ++ rest, w)

/-- The end of `handle_notify`, once its handlers have been called. -/
def afterNotify (w : Endpoint σ κ δ) (opcode : UInt8) (found : Bool) :
    List (BearerEvent κ δ) × Endpoint σ κ δ :=
  if ¬found ∧ getOpType opcode ≠ .cmd then
    let (events, att) := w.att.respondNotSupported opcode
    (events, { w with att })
  else ([], w)

/-- `handle_notify`. -/
def handleNotify (w : Endpoint σ κ δ) (opcode : UInt8) (pdu : List UInt8) :
    List (BearerEvent κ δ) × Endpoint σ κ δ :=
  let signed : Bool := isSigned opcode ∧ w.att.crypto.isNone
  if signed ∧ ¬w.att.handleSigned pdu then ([], w)
  else
    let pdu := if signed then pdu.take (pdu.length - btAttSignatureLen) else pdu
    let found := w.att.notifyList.any fun notify => opcodeMatch notify.opcode opcode
    let (events, w) := w.notifyAll U env opcode pdu w.att.notifyList
    let (answer, w) := w.afterNotify opcode found
    (events ++ answer, w)

/-- `can_read_data`, with the packet that is read. The bytes that exceed the
    buffer are lost. -/
def canReadData (w : Endpoint σ κ δ) (link : Link) (packet : List UInt8) :
    List (BearerEvent κ δ) × Endpoint σ κ δ :=
  let buf := packet.take w.att.mtu
  match buf with
  | [] => ([.received buf], w)
  | opcode :: pdu =>
    let (events, w) := match getOpType opcode with
      | .rsp => w.handleRsp U env link opcode pdu
      | .conf => w.handleConf U env pdu
      | .req =>
        if w.att.inReq then ([.shutdown], { w with att := { w.att with reading := false } })
        else { w with att := { w.att with inReq := true } }.handleNotify U env opcode pdu
      | _ => w.handleNotify U env opcode pdu
    (.received buf :: events, w)

/-- The disconnect handlers from a position on. The list does not change while
    they run, but an entry may be marked. -/
def disconnHandlers (w : Endpoint σ κ δ) (err : ℤ) :
    ℕ → List (BearerEvent κ δ) × Endpoint σ κ δ
  | 0 => ([], w)
  | remaining + 1 =>
    let (events, w) : List (BearerEvent κ δ) × Endpoint σ κ δ :=
      match w.att.disconnList[w.att.disconnList.length - (remaining + 1)]? with
      | none => ([], w)
      | some disconn =>
        if disconn.removed then ([], w)
        else match disconn.callback with
          | none => ([], w)
          | some callback => w.upcall U env (.disconnect callback err)
    let (rest, w) := w.disconnHandlers err remaining
    (events ++ rest, w)

/-- A queue is emptied, and its operations end. -/
def discQueue (w : Endpoint σ κ δ) (queue : Bearer κ δ → List (AttSendOp κ δ))
    (empty : Bearer κ δ → Bearer κ δ) : List (BearerEvent κ δ) × Endpoint σ κ δ :=
  { w with att := empty w.att }.discAll U env (queue w.att)

end Endpoint

namespace Bearer

variable {κ δ : Type*}

/-- `bt_att_unregister_all`. -/
def btAttUnregisterAll (att : Bearer κ δ) : List (BearerEvent κ δ) × Bearer κ δ :=
  ((att.notifyList.map AttNotify.destroy ++ att.disconnList.map AttDisconn.destroy).flatMap
    destroyEvents, { att with notifyList := [], disconnList := [] })

/-- `bt_att_register` for all handlers of PDUs, and
    `bt_att_register_disconnect`. -/
def btAttRegister (att : Bearer κ δ) (opcode : UInt8) (callback : κ) (destroy : Option δ) :
    List (BearerEvent κ δ) × Bearer κ δ :=
  if ¬att.io then ([], att)
  else
    let id := if att.nextRegId < 1 then 1 else att.nextRegId
    ([.registered destroy], { att with
      nextRegId := id + 1
      notifyList := att.notifyList ++ [⟨id, opcode, callback, destroy⟩] })

def btAttRegisterDisconnect (att : Bearer κ δ) (callback : Option κ) (destroy : Option δ) :
    List (BearerEvent κ δ) × Bearer κ δ :=
  if ¬att.io then ([], att)
  else
    let id := if att.nextRegId < 1 then 1 else att.nextRegId
    ([.registered destroy], { att with
      nextRegId := id + 1
      disconnList := att.disconnList ++ [⟨id, false, callback, destroy⟩] })

def btAttUnregister (att : Bearer κ δ) (id : BitVec 32) : List (BearerEvent κ δ) × Bearer κ δ :=
  if id = 0 then ([], att)
  else match att.notifyList.find? (·.id = id) with
    | none => ([], att)
    | some notify => (destroyEvents notify.destroy,
      { att with notifyList := att.notifyList.eraseP (·.id = id) })

/-- `bt_att_set_timeout_cb`. -/
def btAttSetTimeoutCb (att : Bearer κ δ) (callback : Option κ) (destroy : Option δ) :
    List (BearerEvent κ δ) × Bearer κ δ :=
  (destroyEvents att.timeoutDestroy ++ [.registered destroy],
    { att with timeoutCallback := callback, timeoutDestroy := destroy })

/-- `bt_att_unref` of the last reference, with `bt_att_free`. -/
def btAttUnref (att : Bearer κ δ) : List (BearerEvent κ δ) :=
  let (unregistered, att) := att.btAttUnregisterAll
  let (cancelled, att) := att.btAttCancelAll
  unregistered ++ cancelled ++ (att.pendingReq.toList ++ att.pendingInd.toList).flatMap
    destroyAttSendOp ++ destroyEvents att.timeoutDestroy

end Bearer

namespace Endpoint

open Bearer

variable {ε σ κ δ : Type*} (U : UpperLayer ε σ κ δ) (env : ε)

/-- `disconnect_cb`, with the socket's error. -/
def disconnectCb (w : Endpoint σ κ δ) (err : ℤ) : List (BearerEvent κ δ) × Endpoint σ κ δ :=
  let w := { w with att := { w.att with io := false, writerActive := false } }
  let (reqs, w) := w.discQueue U env reqQueue fun att => { att with reqQueue := [] }
  let (inds, w) := w.discQueue U env indQueue fun att => { att with indQueue := [] }
  let (writes, w) := w.discQueue U env writeQueue fun att => { att with writeQueue := [] }
  let (req, w) := w.endReq U env (UInt8.ofNat btAttOpErrorRsp) []
  let (ind, w) := w.endInd U env (UInt8.ofNat btAttOpErrorRsp) []
  let (handlers, w) := w.disconnHandlers U env err w.att.disconnList.length
  let (unregistered, att) := w.att.btAttUnregisterAll
  (reqs ++ inds ++ writes ++ req ++ ind ++ handlers ++ unregistered, { w with att })

end Endpoint

/-- What happens to a bearer: an event of the main loop, or a call of the
    application. `error` is a read that fails. -/
inductive BearerInput (ε κ δ : Type*)
  | readable (env : ε) (link : Link) (packet : List UInt8)
  | error
  | writable (env : ε) (ok : Bool)
  | timeout (env : ε) (id : BitVec 32)
  | hangup (env : ε) (err : ℤ)
  | call (call : AttCall κ δ)
  | register (opcode : UInt8) (callback : κ) (destroy : Option δ)
  | registerDisconnect (callback : Option κ) (destroy : Option δ)
  | unregister (id : BitVec 32)
  | unregisterAll
  | setTimeoutCb (callback : Option κ) (destroy : Option δ)
  | unref

/-- The bearer under what the main loop reports, with the application's calls
    in between, until the last reference is given up. -/
def bearerMachine {ε σ κ δ : Type*} (U : UpperLayer ε σ κ δ) :
    StepMachine (Endpoint σ κ δ) (BearerInput ε κ δ) (BearerEvent κ δ) where
  step w i :=
    let go (r : List (BearerEvent κ δ) × Bearer κ δ) := (r.1, some { w with att := r.2 })
    match i with
    | .readable env link packet =>
      if w.att.io ∧ w.att.reading then Prod.map id some (w.canReadData U env link packet)
      else ([], some w)
    | .error => ([], some { w with att := { w.att with reading := false } })
    | .writable env ok =>
      if w.att.io ∧ w.att.writerActive then Prod.map id some (w.canWriteData U env ok)
      else ([], some w)
    | .timeout env timer => Prod.map id some (w.timeoutCb U env timer)
    | .hangup env err =>
      if w.att.io then Prod.map id some (w.disconnectCb U env err) else ([], some w)
    | .call call => go (w.att.perform call)
    | .register opcode callback destroy => go (w.att.btAttRegister opcode callback destroy)
    | .registerDisconnect callback destroy => go (w.att.btAttRegisterDisconnect callback destroy)
    | .unregister handler => go (w.att.btAttUnregister handler)
    | .unregisterAll => go w.att.btAttUnregisterAll
    | .setTimeoutCb callback destroy => go (w.att.btAttSetTimeoutCb callback destroy)
    | .unref => (w.att.btAttUnref, none)

/-- `bt_att_new` on a socket, once every call it tests has succeeded. On a
    socket other than L2CAP the security level is a field of the bearer. -/
def Bearer.new {κ δ : Type*} (ioOnL2cap : Bool) (mtu : ℕ) (crypto : Option AfAlg) :
    Bearer κ δ where
  io := true
  reading := true
  ioOnL2cap := ioOnL2cap
  ioSecLevel := if ioOnL2cap then btAttSecurityAuto else btAttSecurityLow
  encSize := 0
  reqQueue := []
  pendingReq := none
  indQueue := []
  pendingInd := none
  writeQueue := []
  writerActive := false
  notifyList := []
  disconnList := []
  inReq := false
  mtu := mtu
  nextSendId := 0
  nextRegId := 0
  timeoutCallback := none
  timeoutDestroy := none
  crypto := crypto
  localSign := none
  remoteSign := none

end Wallclock
