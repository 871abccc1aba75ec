import Wallclock.Core.Resources
import Wallclock.Library.Await

/-!
# Restarting the Advertisement

`restart_advert` of `server.c` once more, with the commands it sends and the
events that the controller delivers.

Events come in a sequence, finite or infinite, and the socket hands out one
after the other. The first two commands are sent with `hci_send_cmd`, and each
is followed by a `read` of whatever event comes next; where none comes, `read`
does not return. The other two go through `hci_send_req` of the Bluetooth
library, which is a parameter with the law that is relied on: it succeeds at
the first completion of its command, and copies the status to `rparam`.

What the calls return is a parameter too. The result keeps each command with
the number of events that had been read when it was sent.

## Main definitions

* `Opcode`, `Command`: Commands and their parameters.
* `setAdvertisingData`, `setScanResponseData`, `setAdvertisingParameters`,
  `setAdvertiseEnable`: The four that are sent.
* `HciEvent`: Events.
* `HciEvent.status`: The status that an event has for a command.
* `Outcome`, `SendReq`: `hci_send_req`.
* `Host`: How the calls end.
* `Return`, `Ending`: How the function ends.
* `restartAdvert`: `restart_advert`.
-/

namespace Wallclock.Advertising

open Await Descriptor

/-- The group and the number of a command. -/
structure Opcode where
  ogf : ℕ
  ocf : ℕ
deriving DecidableEq

structure Command where
  opcode : Opcode
  param : List UInt8
deriving DecidableEq

/-- `cmd1`. -/
def setAdvertisingData : Command where
  opcode := ⟨8, 8⟩
  param := [0x1E, 0x02, 0x01, 0x1A, 0x1A, 0xFF, 0x4C, 0x00, 0x02, 0x15, 0xE2, 0x0A, 0x39, 0xF4,
    0x73, 0xF5, 0x4B, 0xC4, 0xA1, 0x2F, 0x17, 0xD1, 0xAD, 0x07, 0xA9, 0x61, 0x00, 0x00, 0x00, 0x00,
    0xC8, 0x00]

/-- `cmd2`, which has the name `Wallclock`. -/
def setScanResponseData : Command where
  opcode := ⟨8, 9⟩
  param := [0x0C, 0x0A, 0x09, 0x57, 0x61, 0x6C, 0x6C, 0x63, 0x6C, 0x6F, 0x63, 0x6B] ++
    List.replicate 20 0x00

/-- `adv_params_cp`: the two intervals, the type, the addresses, the channel
    map and the filter. -/
def setAdvertisingParameters : Command where
  opcode := ⟨8, 6⟩
  param := [0x00, 0x08] ++ [0x00, 0x08] ++ [0x00] ++ List.replicate 8 0x00 ++ [0x07] ++ [0x00]

/-- `advertise_cp`. -/
def setAdvertiseEnable : Command where
  opcode := ⟨8, 10⟩
  param := [0x01]

inductive HciEvent
  | other
  | commandComplete (opcode : Opcode) (status : UInt8)
deriving DecidableEq

/-- The status of the command, if the event is its completion. -/
def HciEvent.status (opcode : Opcode) : HciEvent → Option UInt8
  | .other => none
  | .commandComplete completed status => if completed = opcode then some status else none

/-- How `hci_send_req` ends: it fails after a number of events, or returns a value
    that is not negative, with a status in `rparam`, after the event at a
    position. -/
inductive Outcome
  | failed (read : ℕ)
  | done (rc : ℕ) (status : UInt8) (pos : ℕ)

namespace Outcome

/-- The return value. -/
def rc : Outcome → ℤ
  | .failed _ => -1
  | .done rc _ _ => rc

/-- How many events have been read then. -/
def read : Outcome → ℕ
  | .failed read => read
  | .done _ _ pos => pos + 1

/-- The position of the event that the call has ended with, if it succeeds. -/
def event : Outcome → Option ℕ
  | .failed _ => none
  | .done _ _ pos => some pos

end Outcome

/-- `hci_send_req`: from a command, a timeout, the events and how many have been
    read, how it ends. -/
structure SendReq where
  run : Command → ℕ → Stream'.Seq HciEvent → ℕ → Outcome
  completes : ∀ c timeout events pos rc status n, run c timeout events pos = .done rc status n →
    First events (HciEvent.status c.opcode) pos n status

/-- Which calls of `restart_advert` succeed, and the events. -/
structure Host where
  openDev : Bool
  setFilter : Bool
  sendData : Bool
  readData : Bool
  sendScan : Bool
  readScan : Bool
  events : Stream'.Seq HciEvent
  sendReq : SendReq

/-- The return value, the descriptors, the commands with the number of events
    read before them, and the number of events read. -/
structure Return where
  rc : ℤ
  table : Table
  sent : List (Command × ℕ)
  read : ℕ

/-- The process exits, a `read` does not return, or the function does. -/
inductive Ending
  | exited
  | blocked
  | returned (r : Return)

def restartAdvert (K : Allocator) (h : Host) (t : Table) : Ending :=
  if !h.openDev then .exited
  else
    let (dd, t) := t.openNew K
    -- The label `fail`, which every path but the one above comes to.
    let fail (rc : ℤ) (sent : List (Command × ℕ)) (read : ℕ) : Ending :=
      .returned ⟨rc, t.close (some dd), sent, read⟩
    if !h.setFilter then fail (-1) [] 0
    else if !h.sendData then fail (-1) [] 0
    else
      let sent := [(setAdvertisingData, 0)]
      if !h.readData then fail (-1) sent 0
      else if h.events.get? 0 = none then .blocked
      else if !h.sendScan then fail (-1) sent 1
      else
        let sent := sent ++ [(setScanResponseData, 1)]
        if !h.readScan then fail (-1) sent 1
        else if h.events.get? 1 = none then .blocked
        else
          let sent := sent ++ [(setAdvertisingParameters, 2)]
          let rq := h.sendReq.run setAdvertisingParameters 500 h.events 2
          if rq.rc < 0 then fail (-1) sent rq.read
          else
            let sent := sent ++ [(setAdvertiseEnable, rq.read)]
            -- The status in `rparam` is read after neither request.
            let rq := h.sendReq.run setAdvertiseEnable 1000 h.events rq.read
            fail rq.rc sent rq.read

end Wallclock.Advertising
