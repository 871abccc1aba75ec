import Wallclock.Core.Callbacks
import Wallclock.Core.GattDb

/-!
# The Server's Database

`populate_db` of `server.c`: the four services of the server, attribute by
attribute. Each function fails as a whole if one of its insertions fails; the
log lines are left out.

A value written to the database goes through `gatt_db_attribute_write`, which
stores it at once, as none of the attributes written to has a callback. Such a
write has offset zero and leaves no byte uninitialised.

## Main definitions

* `populateGapService`, `populateGattService`, `populateClockReadService`,
  `populateClockWriteService`: The services.
* `populateDb`: `populate_db`, the database and the handles stored on the way.
-/

namespace Wallclock

def uuidGap : Uuid := .uuid16 0x1800
def uuidGatt : Uuid := .uuid16 0x1801
def uuidI2cRead : Uuid := .uuid128 0x000A0001_1000_8000_0080_5F9B34FB0000
def uuidI2cReadData : Uuid := .uuid128 0x000A0002_0010_0080_0000_805F9B34FB00
def uuidI2cWrite : Uuid := .uuid128 0x000A0003_0010_0080_0000_805F9B34FB00
def uuidI2cWriteData : Uuid := .uuid128 0x000A0004_0010_0080_0000_805F9B34FB00

def gattCharacDeviceName : Uuid := .uuid16 0x2A00
def gattCharacAppearance : Uuid := .uuid16 0x2A01
def gattCharacPeripheralPrefConn : Uuid := .uuid16 0x2A04
def gattCharacServiceChanged : Uuid := .uuid16 0x2A05

/-- `"WALLCLOCK"` with its terminating zero, which `name_len` counts. -/
def deviceName : List UInt8 := [0x57, 0x41, 0x4C, 0x4C, 0x43, 0x4C, 0x4F, 0x43, 0x4B, 0x00]

/-- The preferred connection parameters, four 16-bit fields. -/
def preference : List UInt8 := [6, 0, 8, 0, 0, 0, 0xFA, 0]

/-- Write a value the database stores. -/
def GattDb.writeValue (db : GattDb) (handle : ℕ) (value : List UInt8) : Option GattDb := do
  let attrib ← gattDbGetAttribute db handle
  some (db.setAttribute (attrib.store (fun _ => 0) 0 value))

def populateGapService (db : GattDb) : Option GattDb := do
  let (db, service) ← gattDbAddService db uuidGap true 7
  let (db, tmp) ← gattDbServiceAddCharacteristic db service gattCharacDeviceName
    btAttPermRead btGattChrcPropRead none none
  let db ← db.writeValue tmp deviceName
  let (db, tmp) ← gattDbServiceAddCharacteristic db service gattCharacAppearance
    btAttPermRead btGattChrcPropRead none none
  let db ← db.writeValue tmp [0, 0]
  let (db, tmp) ← gattDbServiceAddCharacteristic db service gattCharacPeripheralPrefConn
    btAttPermRead btGattChrcPropRead none none
  let db ← db.writeValue tmp preference
  some (gattDbServiceSetActive db service true)

def populateGattService (server : Server) (db : GattDb) : Option (Server × GattDb) := do
  let (db, service) ← gattDbAddService db uuidGatt true 4
  let (db, svcChngd) ← gattDbServiceAddCharacteristic db service gattCharacServiceChanged
    btAttPermRead (btGattChrcPropRead ||| btGattChrcPropIndicate)
    (some .gattServiceChangedCb) none
  let server := { server with gattSvcChngdHandle := svcChngd }
  let (db, _) ← gattDbServiceAddDescriptor db service gattClientCharacCfgUuid
    (btAttPermRead ||| btAttPermWrite)
    (some .gattSvcChngdCccReadCb) (some .gattSvcChngdCccWriteCb)
  some (server, gattDbServiceSetActive db service true)

def populateClockReadService (server : Server) (db : GattDb) : Option (Server × GattDb) := do
  let (db, service) ← gattDbAddService db uuidI2cRead true 4
  let (db, clockReadData) ← gattDbServiceAddCharacteristic db service uuidI2cReadData
    (btAttPermRead ||| btAttPermWrite) btGattChrcPropNotify none none
  let server := { server with clockReadDataHandle := clockReadData }
  let (db, _) ← gattDbServiceAddDescriptor db service gattClientCharacCfgUuid
    (btAttPermRead ||| btAttPermWrite)
    (some .clockReadDataCccReadCb) (some .clockReadDataCccWriteCb)
  some (server, gattDbServiceSetActive db service true)

def populateClockWriteService (server : Server) (db : GattDb) : Option (Server × GattDb) := do
  let (db, service) ← gattDbAddService db uuidI2cWrite true 3
  let (db, clockWriteData) ← gattDbServiceAddCharacteristic db service uuidI2cWriteData
    btAttPermWrite btGattChrcPropWriteWithoutResp none (some .clockWriteDataWriteCb)
  let server := { server with clockWriteDataHandle := clockWriteData }
  some (server, gattDbServiceSetActive db service true)

def populateDb (server : Server) (db : GattDb) : Option (Server × GattDb) := do
  let db ← populateGapService db
  let (server, db) ← populateGattService server db
  let (server, db) ← populateClockReadService server db
  populateClockWriteService server db

end Wallclock
