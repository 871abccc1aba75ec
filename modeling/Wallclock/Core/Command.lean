import Wallclock.Core.Message

/-!
# The Clock Command Handler

`get_time` and `clock_command` of `commands.c`, with the globals they share.

The handler copies the client's bytes into the union buffer `m`, which is an
uninitialised local: its earlier contents are the parameter `stack`. Only the
bytes the client sent are overwritten, so whatever the handler reads beyond
them comes from `stack`.

What the system calls return while one command is handled is the parameter
`clock`. A command reads `time(NULL)` at most once.

`exit(EXIT_FAILURE)` ends the process; it is the result `none`. The log lines
written to standard output have no effect on the state and are left out.

## Main definitions

* `Globals`: The global variables of the handler.
* `Clock`: The results of the time calls.
* `getTime`: `get_time`, the local time in units of 1/256 s.
* `clockCommand`: `clock_command`, the notifications sent and the globals
  after it, or nothing if the process exits.
-/

namespace Wallclock

open ByteCodec

/-- The globals of `commands.c`, and the local static of `clock_command`.
    `gDelta` is signed, `gFaceTime` is also its own is-set flag. -/
structure Globals where
  gLastPollTime : BitVec 64
  gPollInterval : BitVec 16
  gDelta : BitVec 64
  gVbat : BitVec 16
  gMatch : BitVec 16
  gPollCount : BitVec 16
  gTimeouts : BitVec 16
  gFaceTime : BitVec 64
  lastActivity : BitVec 64
deriving DecidableEq

/-- The globals at start-up: all zero except the commanded face time. -/
def Globals.init (faceTime : BitVec 64) : Globals where
  gLastPollTime := 0
  gPollInterval := 0
  gDelta := 0
  gVbat := 0
  gMatch := 0
  gPollCount := 0
  gTimeouts := 0
  gFaceTime := faceTime
  lastActivity := 0

/-- What the time calls return while one command is handled: `time(NULL)`,
    the `tm_gmtoff` that `localtime_r` finds for an instant, and the two
    fields of `clock_gettime(CLOCK_REALTIME)`. -/
structure Clock where
  time : BitVec 64
  gmtoff : BitVec 64 → BitVec 64
  tvSec : BitVec 64
  tvNsec : BitVec 64

def getTime (clock : Clock) : BitVec 64 :=
  (clock.tvSec <<< 8) + (clock.tvNsec <<< 8) / 1000000000#64 + (clock.gmtoff clock.time <<< 8)

def clockCommand (stack : Msg) (clock : Clock) (g : Globals) (cmd : List UInt8) :
    List (List UInt8) × Option Globals :=
  let m := stack.memcpy cmd
  if m.u8Cmd = clkReqFaceTime then
    if g.gFaceTime ≠ 0 then
      let m := (m.setCmd srvrAcceptFaceTime).setU64Data g.gFaceTime
      ([m.slice 0 sizeofMsgU64], some { g with lastActivity := clock.time })
    else ([], none)
  else if m.u8Cmd = clkReqTime then
    let m := (m.setCmd srvrAcceptTime).setU64Data (getTime clock)
    ([m.slice 0 sizeofMsgU64], some g)
  else if m.u8Cmd = clkAcceptStatus then
    let g := { g with
      -- `1 << m.sts.interval`, stored in 16 bits.
      gPollInterval := BitVec.ofNat 16 (1 <<< m.stsInterval)
      gDelta := BitVec.ofNat 64 m.stsOffset
      gVbat := BitVec.ofNat 16 m.stsBattery
      gMatch := BitVec.ofNat 16 m.stsMatch
      gLastPollTime := clock.time
      gPollCount := g.gPollCount + 1
      gTimeouts := BitVec.ofNat 16 m.stsTimeouts }
    let m := m.setCmd srvrAcceptDone
    let g := { g with lastActivity := g.gLastPollTime }
    ([m.slice 0 sizeofMsgU8], some (if g.gFaceTime ≠ 0 then { g with gFaceTime := 0 } else g))
  else ([], some g)

end Wallclock
