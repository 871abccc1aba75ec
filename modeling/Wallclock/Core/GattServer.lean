import Wallclock.Core.Database
import Wallclock.Library.Machine

/-!
# The GATT Server

The request handlers of `gatt-server.c`, on the transport of `att.c` and the
database and callbacks of the server: everything between a request PDU and the
PDUs queued in answer to it. Allocations succeed.

A handler's argument is the PDU without its opcode. The largest 16-bit
transmission unit has room for 65534 such bytes, so the lengths a handler
computes from one PDU fit 16 bits.

The application answers an operation on an attribute before its callback
returns. A function that takes a completion callback in the source therefore
returns what it would pass to it, and its caller goes on with that. The
exception is an operation whose identifier is zero: the database does not
accept an answer to it, so it stays pending, which is the result `none`. The
timers that answer an operation after five seconds are left out; a run is a
sequence of PDUs.

Two things end a run. The process exits inside `clock_command`, or the heap is
misused, after which C says nothing about what the process does. The second is
the event `corrupt`. A prepared value leads to it whose total length reaches
2 ^ 16, since its length field has 16 bits: beyond 2 ^ 16 the bytes are copied
past the block that `realloc` returned, and at exactly 2 ^ 16 `realloc` frees
the block, as glibc does for the size zero, and a later use of it is the one
that ends the run.

## Main definitions

* `Connection`: The state of one connection.
* `Env`: What the outside world contributes to the handling of one PDU.
* `Event`: What the handling of a PDU makes visible.
* `btAttSend`, `btAttSendErrorRsp`: Queueing a PDU.
* `checkPermissions`: `check_permissions`.
* `gattDbAttributeRead`, `gattDbAttributeWrite`: Access to an attribute.
* `exchangeMtuCb`, `readByGrpTypeCb`, `readByTypeCb`, `findInfoCb`,
  `findByTypeValCb`, `writeCb`, `readCb`, `readBlobCb`, `readMultipleCb`,
  `prepWriteCb`, `execWriteCb`: The handlers.
* `Opcode`: The opcodes that have a handler.
* `Exchange`: A PDU and the environment it is handled in.
* `handleNotify`: The handling of a PDU by the handler registered for it.
* `gattMachine`: The connection under a sequence of PDUs.
* `connect`: The connection `server_create` sets up.
-/

namespace Wallclock

open ByteCodec

/-- `struct prep_write_data`. The value is `freed` if `realloc` has released its
    block and the structure still points to it. -/
structure PrepWriteData where
  value : List UInt8
  handle : ℕ
  offset : ℕ
  reliableSupported : Bool
  freed : Bool
deriving DecidableEq

/-- The state of a connection: `struct bt_gatt_server` with its database, the
    fields of `struct bt_att` it uses, and what the callbacks share. A pending
    operation is represented by its opcode. -/
structure Connection where
  db : GattDb
  mtu : ℕ
  minEncSize : ℕ
  prepQueue : List PrepWriteData
  maxPrepQueueLen : ℕ
  pendingReadOp : Option ℕ
  pendingWriteOp : Option ℕ
  attMtu : ℕ
  encSize : ℕ
  server : Server
  globals : Globals

/-- What the outside world contributes to the handling of one PDU: the results
    of the time calls, the earlier contents of the command buffer, the bytes
    in newly allocated memory, and the link's security level, negative if the
    socket option could not be read. `heap` has its own bytes for each write
    of an Execute Write Request. -/
structure Env where
  clock : Clock
  stack : Msg
  heap : ℕ → ℕ → UInt8
  security : ℤ

/-- A call of `clock_command`, a PDU that `bt_att_send` accepts, or a copy past
    the end of a heap block or the use of a freed one. -/
inductive Event
  | command (value : List UInt8)
  | queued (opcode : ℕ) (pdu : List UInt8)
  | corrupt
deriving DecidableEq

/-- The 16-bit field at the start of some bytes. -/
def getLe16 (pdu : List UInt8) : ℕ := leNat (pdu.take 2)

/-- `bt_att_send`: `encode_pdu` refuses a PDU that exceeds the transmission
    unit. -/
def btAttSend (c : Connection) (opcode : ℕ) (pdu : List UInt8) : List Event :=
  if 1 + pdu.length > c.attMtu then [] else [.queued opcode pdu]

/-- `att_ecode_from_error`. None of the negative codes occurs. -/
def attEcodeFromError (err : ℕ) : ℕ :=
  if err > 0 ∧ err < 255 then err else btAttErrorUnlikely

def btAttSendErrorRsp (c : Connection) (opcode handle err : ℕ) : List Event :=
  btAttSend c btAttOpErrorRsp
    (leBytes 1 opcode ++ leBytes 2 handle ++ leBytes 1 (attEcodeFromError err))

def btGattServerSendNotification (c : Connection) (n : Notification) : List Event :=
  let pduLen := min (c.attMtu - 1) (n.value.length + 2)
  btAttSend c btAttOpHandleValNot (leBytes 2 n.handle ++ n.value.take (pduLen - 2))

def checkMinKeySize (minSize size : ℕ) : Bool := minSize = 0 ∨ size = 0 ∨ minSize ≤ size

/-- `check_permissions`, zero if the access is permitted. -/
def checkPermissions (env : Env) (c : Connection) (attr : Attribute) (mask : ℕ) : ℕ :=
  let perm := attr.permissions
  if perm ≠ 0 ∧ mask &&& btAttPermRead ≠ 0 ∧ perm &&& btAttPermRead = 0 then
    btAttErrorReadNotPermitted
  else if perm ≠ 0 ∧ mask &&& btAttPermWrite ≠ 0 ∧ perm &&& btAttPermWrite = 0 then
    btAttErrorWriteNotPermitted
  else
    let perm := perm &&& mask
    let keySize := checkMinKeySize c.minEncSize c.encSize
    if perm = 0 then 0
    else if env.security < 0 then btAttErrorUnlikely
    else if perm &&& btAttPermSecure ≠ 0 ∧ env.security < btAttSecurityFips then
      btAttErrorAuthentication
    else if perm &&& btAttPermSecure ≠ 0 ∧ ¬keySize then btAttErrorInsufficientEncryptionKeySize
    else if perm &&& btAttPermAuthen ≠ 0 ∧ env.security < btAttSecurityHigh then
      btAttErrorAuthentication
    else if perm &&& btAttPermAuthen ≠ 0 ∧ ¬keySize then btAttErrorInsufficientEncryptionKeySize
    else if perm &&& btAttPermEncrypt ≠ 0 ∧ env.security < btAttSecurityMedium then
      btAttErrorInsufficientEncryption
    else if perm &&& btAttPermEncrypt ≠ 0 ∧ ¬keySize then btAttErrorInsufficientEncryptionKeySize
    else 0

/-- The mask of a read. -/
def readMask : ℕ := btAttPermRead ||| btAttPermReadAuthen ||| btAttPermReadEncrypt

/-- The mask of a write. -/
def writeMask : ℕ := btAttPermWrite ||| btAttPermWriteAuthen ||| btAttPermWriteEncrypt

/-- What a read callback passes to `gatt_db_attribute_read_result`. -/
def ReadFunc.call (server : Server) (offset : ℕ) : ReadFunc → List UInt8
  | .gattServiceChangedCb => Wallclock.gattServiceChangedCb server offset
  | .gattSvcChngdCccReadCb => Wallclock.gattSvcChngdCccReadCb server offset
  | .clockReadDataCccReadCb => Wallclock.clockReadDataCccReadCb server offset

/-- What a write callback makes visible, and then the connection after it and
    what it passes to `gatt_db_attribute_write_result`. -/
def WriteFunc.call (env : Env) (c : Connection) (offset : ℕ) (value : Option (List UInt8)) :
    WriteFunc → List Event × Option (Connection × ℕ)
  | .gattSvcChngdCccWriteCb =>
    let (server, ecode) := Wallclock.gattSvcChngdCccWriteCb c.server offset value
    ([], some ({ c with server }, ecode))
  | .clockReadDataCccWriteCb =>
    let (server, ecode) := Wallclock.clockReadDataCccWriteCb c.server offset value
    ([], some ({ c with server }, ecode))
  | .clockWriteDataWriteCb =>
    let (events, next) := clockWriteDataWriteCbWith (fun value =>
      let (sent, next) := clockCommand env.stack env.clock c.globals value
      (.command value :: sent.flatMap fun buffer =>
        btGattServerSendNotification c (clockReadDataCb c.server buffer), next))
      c.globals offset value
    (events, next.map fun (globals, ecode) => ({ c with globals }, ecode))

/-- `gatt_db_attribute_read`: the error code and the value that are passed to
    the completion callback, unless the operation stays pending. -/
def gattDbAttributeRead (c : Connection) (attrib : Attribute) (offset : ℕ) :
    Connection × Option (ℕ × List UInt8) :=
  match attrib.readFunc with
  | some readFunc =>
    let reads := attrib.reads.push
    let (reads, found) := reads.result reads.id
    ({ c with db := c.db.setAttribute { attrib with reads } },
      if found then some (0, readFunc.call c.server offset) else none)
  | none =>
    if offset > attrib.value.length then (c, some (btAttErrorInvalidOffset, []))
    else (c, some (0, attrib.value.drop offset))

/-- `gatt_db_attribute_write`. A value of `none` is the NULL pointer with
    length zero. -/
def gattDbAttributeWrite (env : Env) (c : Connection) (attrib : Attribute) (offset : ℕ)
    (value : Option (List UInt8)) : List Event × Option (Connection × Option ℕ) :=
  match attrib.writeFunc with
  | some writeFunc =>
    let writes := attrib.writes.push
    let (events, next) := writeFunc.call env c offset value
    match next with
    | none => (events, none)
    | some (c, ecode) =>
      let (writes, found) := writes.result writes.id
      (events, some ({ c with db := c.db.setAttribute { attrib with writes } },
        if found then some ecode else none))
  | none =>
    let attrib := attrib.store (env.heap c.prepQueue.length) offset (value.getD [])
    ([], some ({ c with db := c.db.setAttribute attrib }, some 0))

def exchangeMtuCb (c : Connection) (opcode : ℕ) (pdu : List UInt8) : List Event × Connection :=
  if pdu.length ≠ 2 then (btAttSendErrorRsp c opcode 0 btAttErrorInvalidPdu, c)
  else
    let finalMtu := max (min (getLe16 pdu) c.mtu) btAttDefaultLeMtu
    (btAttSend c btAttOpMtuRsp (leBytes 2 c.mtu), { c with mtu := finalMtu, attMtu := finalMtu })

/-- `encode_read_by_grp_type_rsp`, unless it fails. The value of a service
    declaration is stored in the database. -/
def encodeReadByGrpTypeRsp (mtu : ℕ) (q : List Service) : Option (List UInt8) :=
  match q.head? with
  | none => some []
  | some s =>
    let dataValLen := min (min (mtu - 6) 251) s.declaration.value.length
    go dataValLen (leBytes 1 (dataValLen + 4)) q
where go (dataValLen : ℕ) (pdu : List UInt8) : List Service → Option (List UInt8)
  | [] => some pdu
  | s :: q =>
    let value := s.declaration.value
    if value.length = 0 then none
    -- The first unit sets the length and is not compared with it.
    else if pdu.length > 1 ∧ value.length ≠ dataValLen then some pdu
    else if pdu.length + dataValLen + 4 > mtu - 1 then some pdu
    else go dataValLen (pdu ++ leBytes 2 s.declaration.handle ++ leBytes 2 s.endHandle ++
      value.take dataValLen) q

def readByGrpTypeCb (c : Connection) (opcode : ℕ) (pdu : List UInt8) : List Event :=
  if pdu.length ≠ 6 ∧ pdu.length ≠ 20 then btAttSendErrorRsp c opcode 0 btAttErrorInvalidPdu
  else
    let start := getLe16 pdu
    let end_ := getLe16 (pdu.drop 2)
    let type := Uuid.ofLe (pdu.drop 4)
    if start = 0 ∨ end_ = 0 then btAttSendErrorRsp c opcode 0 btAttErrorInvalidHandle
    else if start > end_ then btAttSendErrorRsp c opcode start btAttErrorInvalidHandle
    else if ¬type.cmp gattPrimSvcUuid ∧ ¬type.cmp gattSndSvcUuid then
      btAttSendErrorRsp c opcode start btAttErrorUnsupportedGroupType
    else
      let q := gattDbReadByGroupType c.db start end_ type
      if q.isEmpty then btAttSendErrorRsp c opcode start btAttErrorAttributeNotFound
      else match encodeReadByGrpTypeRsp c.attMtu q with
        | none => btAttSendErrorRsp c opcode start btAttErrorUnlikely
        | some rsp => btAttSend c btAttOpReadByGrpTypeRsp rsp

/-- The fields of `struct async_read_op` that a Read By Type Request uses. -/
structure AsyncReadOp where
  pdu : List UInt8
  valueLen : ℕ
  done : Bool

/-- `read_by_type_read_complete_cb` without its error branch: the operation
    after one more value. -/
def AsyncReadOp.complete (op : AsyncReadOp) (mtu handle : ℕ) (value : List UInt8) : AsyncReadOp :=
  let first : Bool := op.pdu.length = 0
  let op := if first then
      let valueLen := min (min (mtu - 4) 253) value.length
      { op with pdu := leBytes 1 (valueLen + 2), valueLen }
    else op
  if ¬first ∧ value.length ≠ op.valueLen then { op with done := true }
  else if op.pdu.length + op.valueLen + 2 > mtu - 1 then { op with done := true }
  else
    let pdu := op.pdu ++ leBytes 2 handle ++ value.take op.valueLen
    { op with pdu, done := op.done || pdu.length = mtu - 1 }

/-- `process_read_by_type`, with `read_by_type_read_complete_cb`. -/
def processReadByType (env : Env) (c : Connection) (op : AsyncReadOp) :
    List Attribute → List Event × Connection
  | [] => (btAttSend c btAttOpReadByTypeRsp op.pdu, { c with pendingReadOp := none })
  | attr :: q =>
    if op.done then (btAttSend c btAttOpReadByTypeRsp op.pdu, { c with pendingReadOp := none })
    else
      let ecode := checkPermissions env c attr readMask
      if ecode ≠ 0 then
        (btAttSendErrorRsp c btAttOpReadByTypeReq attr.handle ecode,
          { c with pendingReadOp := none })
      else match gattDbAttributeRead c attr 0 with
        | (c, none) => ([], c)
        | (c, some (err, value)) =>
          if err ≠ 0 then
            (btAttSendErrorRsp c btAttOpReadByTypeReq attr.handle err,
              { c with pendingReadOp := none })
          else processReadByType env c (op.complete c.attMtu attr.handle value) q

def readByTypeCb (env : Env) (c : Connection) (opcode : ℕ) (pdu : List UInt8) :
    List Event × Connection :=
  if pdu.length ≠ 6 ∧ pdu.length ≠ 20 then (btAttSendErrorRsp c opcode 0 btAttErrorInvalidPdu, c)
  else
    let start := getLe16 pdu
    let end_ := getLe16 (pdu.drop 2)
    let type := Uuid.ofLe (pdu.drop 4)
    if start = 0 ∨ end_ = 0 then (btAttSendErrorRsp c opcode 0 btAttErrorInvalidHandle, c)
    else if start > end_ then (btAttSendErrorRsp c opcode start btAttErrorInvalidHandle, c)
    else
      let q := gattDbReadByType c.db start end_ type
      if q.isEmpty then (btAttSendErrorRsp c opcode start btAttErrorAttributeNotFound, c)
      else if c.pendingReadOp.isSome then
        (btAttSendErrorRsp c opcode start btAttErrorUnlikely, c)
      else processReadByType env { c with pendingReadOp := some opcode } ⟨[], 0, false⟩ q

/-- `encode_find_info_rsp`, unless it fails. -/
def encodeFindInfoRsp (mtu : ℕ) (q : List Attribute) : Option (List UInt8) :=
  match q.head? with
  | none => some []
  | some attr =>
    let uuidLen := attr.uuid.toLe.length
    go uuidLen (leBytes 1 (if uuidLen = 2 then 0x01 else 0x02)) q
where go (uuidLen : ℕ) (pdu : List UInt8) : List Attribute → Option (List UInt8)
  | [] => some pdu
  | attr :: q =>
    if attr.handle = 0 then none
    else if attr.uuid.toLe.length ≠ uuidLen then some pdu
    else if pdu.length + uuidLen + 2 > mtu - 1 then some pdu
    else go uuidLen (pdu ++ leBytes 2 attr.handle ++ attr.uuid.toLe) q

def findInfoCb (c : Connection) (opcode : ℕ) (pdu : List UInt8) : List Event :=
  if pdu.length ≠ 4 then btAttSendErrorRsp c opcode 0 btAttErrorInvalidPdu
  else
    let start := getLe16 pdu
    let end_ := getLe16 (pdu.drop 2)
    if start = 0 ∨ end_ = 0 then btAttSendErrorRsp c opcode 0 btAttErrorInvalidHandle
    else if start > end_ then btAttSendErrorRsp c opcode start btAttErrorInvalidHandle
    else
      let q := gattDbFindInformation c.db start end_
      if q.isEmpty then btAttSendErrorRsp c opcode start btAttErrorAttributeNotFound
      else match encodeFindInfoRsp c.attMtu q with
        | none => btAttSendErrorRsp c opcode start btAttErrorUnlikely
        | some rsp => btAttSend c btAttOpFindInfoRsp rsp

/-- `find_by_type_val_att_cb`, on the response so far and the error code. -/
def findByTypeValAttCb (mtu : ℕ) (data : List UInt8 × ℕ) (s : Service) : List UInt8 × ℕ :=
  if data.2 ≠ 0 then data
  else if data.1.length + 4 > mtu - 1 then data
  else if s.declaration.handle = 0 ∨ s.endHandle = 0 then (data.1, btAttErrorUnlikely)
  else (data.1 ++ leBytes 2 s.declaration.handle ++ leBytes 2 s.endHandle, 0)

def findByTypeValCb (c : Connection) (opcode : ℕ) (pdu : List UInt8) : List Event :=
  if pdu.length < 6 then btAttSendErrorRsp c opcode 0 btAttErrorInvalidPdu
  else
    let start := getLe16 pdu
    let end_ := getLe16 (pdu.drop 2)
    let uuid := Uuid.ofLe ((pdu.drop 4).take 2)
    if start > end_ then btAttSendErrorRsp c opcode start btAttErrorInvalidHandle
    else
      let data := (gattDbFindByTypeValue c.db start end_ uuid (pdu.drop 6)).foldl
        (findByTypeValAttCb c.attMtu) ([], 0)
      let ecode := if data.1.length = 0 then btAttErrorAttributeNotFound else data.2
      if ecode ≠ 0 then btAttSendErrorRsp c opcode start ecode
      else btAttSend c btAttOpFindByTypeRsp data.1

/-- `write_complete_cb`, which also ends the pending operation. -/
def writeCompleteCb (c : Connection) (opcode handle err : ℕ) : List Event × Connection :=
  (if opcode = btAttOpWriteCmd then []
    else if err ≠ 0 then btAttSendErrorRsp c opcode handle err
    else btAttSend c btAttOpWriteRsp [],
    { c with pendingWriteOp := none })

/-- The error branch of `write_cb`: a command is not answered. -/
def writeError (c : Connection) (opcode handle ecode : ℕ) : List Event × Option Connection :=
  (if opcode = btAttOpWriteCmd then [] else btAttSendErrorRsp c opcode handle ecode, some c)

def writeCb (env : Env) (c : Connection) (opcode : ℕ) (pdu : List UInt8) :
    List Event × Option Connection :=
  if pdu.length < 2 then writeError c opcode 0 btAttErrorInvalidPdu
  else
    let handle := getLe16 pdu
    match gattDbGetAttribute c.db handle with
    | none => writeError c opcode handle btAttErrorInvalidHandle
    | some attr =>
      let ecode := checkPermissions env c attr writeMask
      if ecode ≠ 0 then writeError c opcode handle ecode
      else if c.pendingWriteOp.isSome then writeError c opcode handle btAttErrorUnlikely
      else match gattDbAttributeWrite env { c with pendingWriteOp := some opcode } attr 0
          (some (pdu.drop 2)) with
        | (events, none) => (events, none)
        | (events, some (c, none)) => (events, some c)
        | (events, some (c, some err)) =>
          let (answer, c) := writeCompleteCb c opcode attr.handle err
          (events ++ answer, some c)

def getReadRspOpcode (opcode : ℕ) : ℕ :=
  if opcode = btAttOpReadReq then btAttOpReadRsp
  else if opcode = btAttOpReadBlobReq then btAttOpReadBlobRsp
  else 0

/-- `read_complete_cb`, which also ends the pending operation. -/
def readCompleteCb (c : Connection) (opcode handle err : ℕ) (value : List UInt8) :
    List Event × Connection :=
  (if err ≠ 0 then btAttSendErrorRsp c opcode handle err
    else btAttSend c (getReadRspOpcode opcode) (value.take (c.attMtu - 1)),
    { c with pendingReadOp := none })

def handleReadReq (env : Env) (c : Connection) (opcode handle offset : ℕ) :
    List Event × Connection :=
  match gattDbGetAttribute c.db handle with
  | none => (btAttSendErrorRsp c opcode handle btAttErrorInvalidHandle, c)
  | some attr =>
    let ecode := checkPermissions env c attr readMask
    if ecode ≠ 0 then (btAttSendErrorRsp c opcode handle ecode, c)
    else if c.pendingReadOp.isSome then (btAttSendErrorRsp c opcode handle btAttErrorUnlikely, c)
    else match gattDbAttributeRead { c with pendingReadOp := some opcode } attr offset with
      | (c, none) => ([], c)
      | (c, some (err, value)) => readCompleteCb c opcode attr.handle err value

def readCb (env : Env) (c : Connection) (opcode : ℕ) (pdu : List UInt8) : List Event × Connection :=
  if pdu.length ≠ 2 then (btAttSendErrorRsp c opcode 0 btAttErrorInvalidPdu, c)
  else handleReadReq env c opcode (getLe16 pdu) 0

def readBlobCb (env : Env) (c : Connection) (opcode : ℕ) (pdu : List UInt8) :
    List Event × Connection :=
  if pdu.length ≠ 4 then (btAttSendErrorRsp c opcode 0 btAttErrorInvalidPdu, c)
  else handleReadReq env c opcode (getLe16 pdu) (getLe16 (pdu.drop 2))

/-- A read for a Read Multiple Request and `read_multiple_complete_cb` up to its
    memcpy: the longer response, or the events if the request ends here. -/
def readMultipleCompleteCb (env : Env) (c : Connection) (rspData : List UInt8) (attr : Attribute) :
    Connection × Except (List Event) (List UInt8) :=
  match gattDbAttributeRead c attr 0 with
  | (c, none) => (c, .error [])
  | (c, some (err, value)) =>
    let ecode := checkPermissions env c attr readMask
    (c,
      if err ≠ 0 then .error (btAttSendErrorRsp c btAttOpReadMultReq attr.handle err)
      else if ecode ≠ 0 then .error (btAttSendErrorRsp c btAttOpReadMultReq attr.handle ecode)
      else .ok (rspData ++ value.take (c.attMtu - rspData.length - 1)))

/-- The reads of a Read Multiple Request from the given attribute on, and then
    of the remaining handles. -/
def readMultipleGo (env : Env) (c : Connection) (rspData : List UInt8) (attr : Attribute) :
    List ℕ → List Event × Connection
  | [] =>
    match readMultipleCompleteCb env c rspData attr with
    | (c, .error events) => (events, c)
    | (c, .ok rspData) => (btAttSend c btAttOpReadMultRsp rspData, c)
  | handle :: handles =>
    match readMultipleCompleteCb env c rspData attr with
    | (c, .error events) => (events, c)
    | (c, .ok rspData) =>
      if rspData.length ≥ c.attMtu - 1 then (btAttSend c btAttOpReadMultRsp rspData, c)
      else match gattDbGetAttribute c.db handle with
        | none => (btAttSendErrorRsp c btAttOpReadMultReq handle btAttErrorInvalidHandle, c)
        | some next => readMultipleGo env c rspData next handles

/-- The 16-bit fields of some bytes; a last odd byte is not one. -/
def getHandles : List UInt8 → List ℕ
  | lo :: hi :: pdu => leNat [lo, hi] :: getHandles pdu
  | _ => []

def readMultipleCb (env : Env) (c : Connection) (opcode : ℕ) (pdu : List UInt8) :
    List Event × Connection :=
  if pdu.length < 4 then (btAttSendErrorRsp c opcode 0 btAttErrorInvalidPdu, c)
  else match getHandles pdu with
    -- Four bytes hold two handles.
    | [] => ([], c)
    | handle :: handles =>
      match gattDbGetAttribute c.db handle with
      | none => (btAttSendErrorRsp c opcode 0 btAttErrorInvalidHandle, c)
      | some attr => readMultipleGo env c [] attr handles

/-- `append_prep_data`: the prepared value after it and whether it succeeds. The
    result is `none` if the bytes are copied past the block or the block has
    been freed before. -/
def appendPrepData (prepData : PrepWriteData) (value : List UInt8) :
    Option (PrepWriteData × Bool) :=
  if value.length = 0 then some (prepData, true)
  else if prepData.freed then none
  else
    let len := prepData.value.length + value.length
    if len < 2 ^ 16 then some ({ prepData with value := prepData.value ++ value }, true)
    -- `realloc` to the length zero frees the block and returns NULL.
    else if len = 2 ^ 16 then some ({ prepData with freed := true }, false)
    else none

def isReliableWriteSupported (db : GattDb) (handle : ℕ) : Bool :=
  match gattDbGetService db handle, gattDbGetAttribute db handle with
  | some service, some attr =>
    match gattDbAttributeGetCharData service attr with
    | none => false
    | some extProp => extProp &&& btGattChrcExtPropReliableWrite ≠ 0
  | _, _ => false

def prepDataNew (c : Connection) (handle offset : ℕ) (value : List UInt8) :
    Option (Connection × Bool) := do
  let (prepData, stored) ← appendPrepData
    ⟨[], handle, offset, isReliableWriteSupported c.db (handle - 1), false⟩ value
  if stored then some ({ c with prepQueue := c.prepQueue ++ [prepData] }, true)
  else some (c, false)

def storePrepData (c : Connection) (handle offset : ℕ) (value : List UInt8) :
    Option (Connection × Bool) :=
  match c.prepQueue.getLast? with
  | none => prepDataNew c handle offset value
  | some prepData =>
    if prepData.handle = handle ∧ offset = prepData.value.length + prepData.offset then do
      let (prepData, stored) ← appendPrepData prepData value
      some ({ c with prepQueue := c.prepQueue.dropLast ++ [prepData] }, stored)
    else prepDataNew c handle offset value

/-- `prep_write_complete_cb`. The response follows the error response for a value
    that could not be stored. -/
def prepWriteCompleteCb (c : Connection) (err : ℕ) (pdu : List UInt8) :
    List Event × Option Connection :=
  let handle := getLe16 pdu
  if err ≠ 0 then (btAttSendErrorRsp c btAttOpPrepWriteReq handle err, some c)
  else match storePrepData c handle (getLe16 (pdu.drop 2)) (pdu.drop 4) with
    | none => ([.corrupt], none)
    | some (c, stored) =>
      ((if stored then []
        else btAttSendErrorRsp c btAttOpPrepWriteRsp handle btAttErrorInsufficientResources) ++
        btAttSend c btAttOpPrepWriteRsp pdu, some c)

def prepWriteCb (env : Env) (c : Connection) (opcode : ℕ) (pdu : List UInt8) :
    List Event × Option Connection :=
  if pdu.length < 4 then (btAttSendErrorRsp c opcode 0 btAttErrorInvalidPdu, some c)
  else if c.prepQueue.length ≥ c.maxPrepQueueLen then
    (btAttSendErrorRsp c opcode 0 btAttErrorPrepareQueueFull, some c)
  else
    let handle := getLe16 pdu
    match gattDbGetAttribute c.db handle with
    | none => (btAttSendErrorRsp c opcode handle btAttErrorInvalidHandle, some c)
    | some attr =>
      let ecode := checkPermissions env c attr writeMask
      if ecode ≠ 0 then (btAttSendErrorRsp c opcode handle ecode, some c)
      else match gattDbAttributeWrite env c attr (getLe16 (pdu.drop 2)) none with
        | (events, none) => (events, none)
        | (events, some (c, none)) => (events, some c)
        | (events, some (c, some err)) =>
          let (answer, c) := prepWriteCompleteCb c err pdu
          (events ++ answer, c)

/-- The removal of all prepared values and then the PDUs of an answer. Each value
    is freed, for a second time if `realloc` has freed it. -/
def removeAllPrepData (c : Connection) (answer : List Event) : List Event × Option Connection :=
  if c.prepQueue.any (·.freed) then ([.corrupt], none)
  else (answer, some { c with prepQueue := [] })

/-- The error branch of `exec_next_prep_write`. -/
def execError (c : Connection) (ehandle err : ℕ) : List Event × Option Connection :=
  removeAllPrepData c (btAttSendErrorRsp c btAttOpExecWriteReq ehandle err)

/-- `exec_next_prep_write` for the given prepare queue, with the writes it goes
    on to through `exec_write_complete_cb`. -/
def execNextPrepWrite (env : Env) (c : Connection) (ehandle : ℕ) :
    List PrepWriteData → List Event × Option Connection
  | [] => (btAttSend c btAttOpExecWriteRsp [], some { c with prepQueue := [] })
  | next :: queue =>
    let c := { c with prepQueue := queue }
    match gattDbGetAttribute c.db next.handle with
    | none => execError c ehandle btAttErrorUnlikely
    | some attr =>
      if next.freed then ([.corrupt], none) else
      -- Nothing has been allocated for an empty value.
      let value := if next.value.length = 0 then none else some next.value
      match gattDbAttributeWrite env c attr next.offset value with
      | (events, none) => (events, none)
      | (events, some (c, none)) => (events, some c)
      | (events, some (c, some err)) =>
        let (answer, c) :=
          if err ≠ 0 then execError c attr.handle err
          else execNextPrepWrite env c attr.handle queue
        (events ++ answer, c)

def execWriteCb (env : Env) (c : Connection) (opcode : ℕ) (pdu : List UInt8) :
    List Event × Option Connection :=
  let error (ehandle ecode : ℕ) : List Event × Option Connection :=
    removeAllPrepData c (btAttSendErrorRsp c opcode ehandle ecode)
  if pdu.length ≠ 1 then error 0 btAttErrorInvalidPdu
  else if pdu.headD 0 = 0x00 then removeAllPrepData c (btAttSend c btAttOpExecWriteRsp [])
  else if pdu.headD 0 = 0x01 then
    -- More than one prepared value makes a reliable session.
    match if c.prepQueue.length > 1 then c.prepQueue.find? (¬·.reliableSupported) else none with
    | some prepData => error prepData.handle btAttErrorRequestNotSupported
    | none => execNextPrepWrite env c 0 c.prepQueue
  else error 0 btAttErrorInvalidPdu

/-- The opcodes `gatt_server_register_att_handlers` registers a handler for. -/
inductive Opcode
  | mtuReq
  | readByGrpTypeReq
  | readByTypeReq
  | findInfoReq
  | findByTypeReq
  | writeReq
  | writeCmd
  | readReq
  | readBlobReq
  | readMultReq
  | prepWriteReq
  | execWriteReq
deriving DecidableEq

/-- A PDU, and the environment it is handled in. -/
structure Exchange extends Env where
  opcode : Opcode
  pdu : List UInt8
  size : 1 + pdu.length < 2 ^ 16

/-- The handler registered for the opcode. -/
def handleNotify (c : Connection) (i : Exchange) : List Event × Option Connection :=
  let go : List Event × Connection → List Event × Option Connection := Prod.map id some
  match i.opcode with
  | .mtuReq => go (exchangeMtuCb c btAttOpMtuReq i.pdu)
  | .readByGrpTypeReq => (readByGrpTypeCb c btAttOpReadByGrpTypeReq i.pdu, some c)
  | .readByTypeReq => go (readByTypeCb i.toEnv c btAttOpReadByTypeReq i.pdu)
  | .findInfoReq => (findInfoCb c btAttOpFindInfoReq i.pdu, some c)
  | .findByTypeReq => (findByTypeValCb c btAttOpFindByTypeReq i.pdu, some c)
  | .writeReq => writeCb i.toEnv c btAttOpWriteReq i.pdu
  | .writeCmd => writeCb i.toEnv c btAttOpWriteCmd i.pdu
  | .readReq => go (readCb i.toEnv c btAttOpReadReq i.pdu)
  | .readBlobReq => go (readBlobCb i.toEnv c btAttOpReadBlobReq i.pdu)
  | .readMultReq => go (readMultipleCb i.toEnv c btAttOpReadMultReq i.pdu)
  | .prepWriteReq => prepWriteCb i.toEnv c btAttOpPrepWriteReq i.pdu
  | .execWriteReq => execWriteCb i.toEnv c btAttOpExecWriteReq i.pdu

/-- One connection under a sequence of PDUs. -/
def gattMachine : StepMachine Connection Exchange Event where
  step := handleNotify

/-- `bt_gatt_server_new` on a new LE transport, whose transmission unit is the
    default. -/
def btGattServerNew (server : Server) (db : GattDb) (globals : Globals) (mtu minEncSize : ℕ) :
    Connection where
  db := db
  mtu := max mtu btAttDefaultLeMtu
  minEncSize := minEncSize
  prepQueue := []
  maxPrepQueueLen := 30
  pendingReadOp := none
  pendingWriteOp := none
  attMtu := btAttDefaultLeMtu
  encSize := 0
  server := server
  globals := globals

/-- The connection that `server_create` sets up from a zeroed structure. -/
def connect (globals : Globals) (mtu : ℕ) : Option Connection := do
  let (server, db) ← populateDb ⟨0, false, 0, 0, false⟩ .new
  some (btGattServerNew server db globals mtu 0)

end Wallclock
