import Mathlib.Data.Nat.Notation

/-!
# Attribute Protocol Constants

The constants of `att-types.h` the server uses, under the source's names:
transmission unit, operation codes, error codes and attribute permissions.

## Main definitions

* `btAttDefaultLeMtu`: The smallest transmission unit, and the first one used.
* `btAttOp...`: The operation codes.
* `btAttError...`: The error codes of an Error Response.
* `btAttPerm...`: The permission bits of an attribute.
* `btAttSecurity...`: The security levels of a link.
* `btGattChrcProp...`: The property bits of a characteristic.
-/

namespace Wallclock

def btAttDefaultLeMtu : ℕ := 23

def btAttSecurityAuto : ℕ := 0
def btAttSecurityLow : ℕ := 1
def btAttSecurityMedium : ℕ := 2
def btAttSecurityHigh : ℕ := 3
def btAttSecurityFips : ℕ := 4

def btAttOpErrorRsp : ℕ := 0x01
def btAttOpMtuReq : ℕ := 0x02
def btAttOpMtuRsp : ℕ := 0x03
def btAttOpFindInfoReq : ℕ := 0x04
def btAttOpFindInfoRsp : ℕ := 0x05
def btAttOpFindByTypeReq : ℕ := 0x06
def btAttOpFindByTypeRsp : ℕ := 0x07
def btAttOpReadByTypeReq : ℕ := 0x08
def btAttOpReadByTypeRsp : ℕ := 0x09
def btAttOpReadReq : ℕ := 0x0a
def btAttOpReadRsp : ℕ := 0x0b
def btAttOpReadBlobReq : ℕ := 0x0c
def btAttOpReadBlobRsp : ℕ := 0x0d
def btAttOpReadMultReq : ℕ := 0x0e
def btAttOpReadMultRsp : ℕ := 0x0f
def btAttOpReadByGrpTypeReq : ℕ := 0x10
def btAttOpReadByGrpTypeRsp : ℕ := 0x11
def btAttOpWriteReq : ℕ := 0x12
def btAttOpWriteRsp : ℕ := 0x13
def btAttOpWriteCmd : ℕ := 0x52
def btAttOpSignedWriteCmd : ℕ := 0xD2
def btAttOpPrepWriteReq : ℕ := 0x16
def btAttOpPrepWriteRsp : ℕ := 0x17
def btAttOpExecWriteReq : ℕ := 0x18
def btAttOpExecWriteRsp : ℕ := 0x19
def btAttOpHandleValNot : ℕ := 0x1B
def btAttOpHandleValInd : ℕ := 0x1D
def btAttOpHandleValConf : ℕ := 0x1E

/-- The opcode to register a handler for all requests and commands under. -/
def btAttAllRequests : ℕ := 0x00

def btAttErrorInvalidHandle : ℕ := 0x01
def btAttErrorReadNotPermitted : ℕ := 0x02
def btAttErrorWriteNotPermitted : ℕ := 0x03
def btAttErrorInvalidPdu : ℕ := 0x04
def btAttErrorAuthentication : ℕ := 0x05
def btAttErrorRequestNotSupported : ℕ := 0x06
def btAttErrorInvalidOffset : ℕ := 0x07
def btAttErrorPrepareQueueFull : ℕ := 0x09
def btAttErrorAttributeNotFound : ℕ := 0x0A
def btAttErrorInsufficientEncryptionKeySize : ℕ := 0x0C
def btAttErrorInvalidAttributeValueLen : ℕ := 0x0D
def btAttErrorUnlikely : ℕ := 0x0E
def btAttErrorInsufficientEncryption : ℕ := 0x0F
def btAttErrorUnsupportedGroupType : ℕ := 0x10
def btAttErrorInsufficientResources : ℕ := 0x11

def btAttPermRead : ℕ := 0x01
def btAttPermWrite : ℕ := 0x02
def btAttPermReadEncrypt : ℕ := 0x04
def btAttPermWriteEncrypt : ℕ := 0x08
def btAttPermEncrypt : ℕ := btAttPermReadEncrypt ||| btAttPermWriteEncrypt
def btAttPermReadAuthen : ℕ := 0x10
def btAttPermWriteAuthen : ℕ := 0x20
def btAttPermAuthen : ℕ := btAttPermReadAuthen ||| btAttPermWriteAuthen
def btAttPermReadSecure : ℕ := 0x0100
def btAttPermWriteSecure : ℕ := 0x0200
def btAttPermSecure : ℕ := btAttPermReadSecure ||| btAttPermWriteSecure

def btGattChrcPropRead : ℕ := 0x02
def btGattChrcPropWriteWithoutResp : ℕ := 0x04
def btGattChrcPropNotify : ℕ := 0x10
def btGattChrcPropIndicate : ℕ := 0x20
def btGattChrcPropExtProp : ℕ := 0x80
def btGattChrcExtPropReliableWrite : ℕ := 0x01

end Wallclock
