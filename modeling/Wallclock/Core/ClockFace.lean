import Mathlib.Algebra.Order.Group.Unbundled.Abs
import Mathlib.Algebra.Order.Ring.Int
import Wallclock.Library.Scan

/-!
# The Face Time Argument

`get_clock_face_time` of `commands.c`, which turns the time an operator types
into the value the clock is set to, and the part of `main` that calls it.

The C library's view of time is a `Zone`: the offset and the daylight saving
flag at every instant, and what `mktime` makes of a local time. The date in a
`struct tm` is kept as a number of days, since the fields it consists of are
only passed from `localtime_r` to `mktime`. A local time is counted in seconds
like an instant, so the local time at an instant is the instant plus the
offset there.

The last statement of the function calls `mktime` and reads `tm_gmtoff` in one
expression. C allows both orders, and `mktime` writes that field, so the order
is a parameter.

## Main definitions

* `Tm`: `struct tm`.
* `Zone`: A set of time-zone rules.
* `Zone.localtime`, `Zone.mktime`: `localtime_r` and `mktime`.
* `EvalOrder`: The order of the call and the read.
* `getClockFaceTime`: `get_clock_face_time`.
* `mainFaceTime`: `gFaceTime` after the arguments have been looked at.
-/

namespace Wallclock

open Scan

structure Tm where
  day : ℤ
  hour : ℤ
  min : ℤ
  sec : ℤ
  isdst : Bool
  gmtoff : ℤ

/-- The local time in seconds. -/
def Tm.localSec (tm : Tm) : ℤ := 86400 * tm.day + 3600 * tm.hour + 60 * tm.min + tm.sec

/-- A set of time-zone rules. `interpret` is the instant that `mktime` finds
    for a local time and a daylight saving flag, if it succeeds. -/
structure Zone where
  offset : ℤ → ℤ
  isdst : ℤ → Bool
  interpret : ℤ → Bool → Option ℤ
  /-- Zone files keep offsets in 32 bits. -/
  bounded : ∀ t, |offset t| < 2 ^ 31
  /-- A local time that some instant has with the given flag is interpreted as
      such an instant. -/
  exact : ∀ t t', interpret (t + offset t) (isdst t) = some t' →
    isdst t' = isdst t ∧ t' + offset t' = t + offset t
  /-- Any local time is interpreted at an offset that the zone has at some
      instant. -/
  applied : ∀ t w flag, interpret w flag = some t → ∃ t', t + offset t' = w

namespace Zone

def localtime (z : Zone) (t : ℤ) : Tm :=
  let local_ := t + z.offset t
  ⟨local_ / 86400, local_ % 86400 / 3600, local_ % 3600 / 60, local_ % 60, z.isdst t, z.offset t⟩

/-- `mktime`: the instant and the structure after the call, which describes
    that instant, or -1 and the structure as it was. -/
def mktime (z : Zone) (tm : Tm) : ℤ × Tm :=
  match z.interpret tm.localSec tm.isdst with
  | none => (-1, tm)
  | some t => (t, z.localtime t)

end Zone

/-- Which comes first in `mktime(&tm) << 8 + tm.tm_gmtoff << 8`. -/
inductive EvalOrder
  | callFirst
  | readFirst

/-- The format `"%u:%u:%u"`. -/
def faceTimeFormat : List Directive :=
  [.unsigned, .literal ':', .unsigned, .literal ':', .unsigned]

/-- `get_clock_face_time` at the instant `now`: the return value, and the
    contents of `*t` after the call. -/
def getClockFaceTime (order : EvalOrder) (z : Zone) (now : ℤ) (ts : List Char) (t : BitVec 64) :
    ℤ × BitVec 64 :=
  match sscanf faceTimeFormat ts with
  | [h, m, s] =>
    if h > 23 then (-1, t)
    else if m > 59 then (-1, t)
    else if s > 59 then (-1, t)
    else
      let timeinfoLocal := { z.localtime now with hour := h.toNat, min := m.toNat, sec := s.toNat }
      let (seconds, after) := z.mktime timeinfoLocal
      let gmtoff := match order with
        | .callFirst => after.gmtoff
        | .readFirst => timeinfoLocal.gmtoff
      (0, (BitVec.ofInt 64 seconds <<< 8) + (BitVec.ofInt 64 gmtoff <<< 8))
  | _ => (-1, t)

/-- The start of `main`: the value of `gFaceTime` when the server starts,
    unless the process exits because the argument of `-s` is no time. -/
def mainFaceTime (order : EvalOrder) (z : Zone) (now : ℤ) : List (List Char) → Option (BitVec 64)
  | _ :: option :: arg :: _ =>
    if option = ['-', 's'] then
      let (rc, gFaceTime) := getClockFaceTime order z now arg 0
      if rc < 0 then none else some gFaceTime
    else some 0
  | _ => some 0

end Wallclock
