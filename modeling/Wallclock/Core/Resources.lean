import Wallclock.Library.Descriptor
import Wallclock.Library.Machine

/-!
# Descriptors and References of the Server Loop

The loop of `server_thread` once more, iteration by iteration, with the
descriptors it opens and closes and the reference counts it takes.

Each function of the source that opens or closes is a function here, from an
outcome (how its system calls end) and the table of descriptors. Opening takes
a number that is not in use; a failing call leaves what it would have opened
unopened. `hci_open_dev` and `hci_close_dev` of the Bluetooth library open and
close one descriptor. Functions of the library that close whatever they opened
(`hci_get_route`) do not appear.

The objects of a session are their reference counts, with what freeing them
closes. `mainloop_init` and the allocations through `new0` do not fail: they
abort the process. The failure path of `server_create` frees `device_name`,
which is a string literal once it has been set; that is undefined behaviour,
and the process is taken to end there. A session ends with the client's
disconnect, or with the process when a command makes it exit.

An iteration works on `Proc`, the table, the static variables that keep
descriptors, and the reference counts that sessions have left behind when the
last pointer to their objects went away.

## Main definitions

* `Crypto`, `Io`, `Att`: What `bt_att_new` allocates.
* `CryptoOutcome`, `AttOutcome`, `CreateOutcome`, `GattOutcome`,
  `AcceptOutcome`, `Iteration`: How the system calls end.
* `btCryptoNew`, `btCryptoUnref`: The three descriptors of the crypto object.
* `ioNew`, `ioDestroy`: The connection's entry in the main loop.
* `btAttNew`, `btAttRef`, `btAttUnref`, `btAttFree`: The transport.
* `Refs`: The reference counts of a session.
* `serverCreate`, `disconnectCb`, `serverDestroy`: The session's objects.
* `restartAdvert`, `l2capLeAttListenAndAccept`: The functions with those names.
* `Phase`: Whether the loop goes on.
* `Proc`: The state at the loop head.
* `Proc.start`: The state at start-up.
* `gattService`: `gatt_service`.
* `Proc.iterate`: One iteration of the loop.
* `Proc.leave`: The closes after the loop.
* `LoopEvent`: An iteration, or the end of the loop.
* `loopMachine`: The loop over any sequence of outcomes.
-/

namespace Wallclock

open Descriptor

/-- The descriptors of `struct bt_crypto`. -/
structure Crypto where
  ecbAes : ℕ
  urandom : ℕ
  cmacAes : ℕ
deriving DecidableEq

/-- `struct io`: `io_cleanup` closes the descriptor if the flag is set. -/
structure Io where
  fd : ℕ
  closeOnDestroy : Bool
deriving DecidableEq

structure Att where
  refCount : ℕ
  io : Option Io
  crypto : Option Crypto
deriving DecidableEq

/-- Which calls of `bt_crypto_new` succeed. -/
structure CryptoOutcome where
  ecbSocket : Bool
  ecbBind : Bool
  urandom : Bool
  cmacSocket : Bool
  cmacBind : Bool
deriving DecidableEq

/-- Which calls of `bt_att_new` succeed: the allocation and `epoll_ctl` of
    `mainloop_add_fd`, those of the two handlers, the test of the MTU and the
    allocation of the buffer. -/
structure AttOutcome where
  addFd : Bool
  crypto : CryptoOutcome
  readHandler : Bool
  disconnectHandler : Bool
  mtu : Bool
  buf : Bool
deriving DecidableEq

/-- Which calls of `server_create` succeed. -/
structure CreateOutcome where
  att : AttOutcome
  populateDb : Bool
deriving DecidableEq

/-- Which calls of `gatt_service` succeed, and whether a session that is
    started ends with the client's disconnect or with the process. -/
structure GattOutcome where
  epollCreate : Bool
  create : CreateOutcome
  disconnects : Bool
deriving DecidableEq

/-- Which calls of `l2cap_le_att_listen_and_accept` succeed. A timeout of
    `select` counts as a failure. -/
structure AcceptOutcome where
  socket : Bool
  bind : Bool
  setSecurity : Bool
  listen : Bool
  select : Bool
  accept : Bool
deriving DecidableEq

/-- How the calls of one iteration end: `hci_open_dev` and the other calls of
    `restart_advert`, `hci_open_dev` of the loop, and the two functions. -/
structure Iteration where
  advertOpen : Bool
  advert : Bool
  openDev : Bool
  accept : AcceptOutcome
  gatt : GattOutcome
deriving DecidableEq

section Functions

variable (K : Allocator)

def btCryptoNew (o : CryptoOutcome) (t : Table) : Option Crypto × Table :=
  if !o.ecbSocket then (none, t)
  else
    let (ecb, t) := t.openNew K
    if !o.ecbBind then (none, t.close (some ecb))
    else if !o.urandom then (none, t.close (some ecb))
    else
      let (urandom, t) := t.openNew K
      if !o.cmacSocket then (none, (t.close (some urandom)).close (some ecb))
      else
        let (cmac, t) := t.openNew K
        if !o.cmacBind then
          (none, ((t.close (some cmac)).close (some urandom)).close (some ecb))
        else (some ⟨ecb, urandom, cmac⟩, t)

/-- `bt_crypto_unref` of the only reference. -/
def btCryptoUnref (crypto : Option Crypto) (t : Table) : Table :=
  match crypto with
  | none => t
  | some c => ((t.close (some c.urandom)).close (some c.ecbAes)).close (some c.cmacAes)

/-- `io_new`: `mainloop_add_fd` has room for descriptors up to 127, and
    `epoll_ctl` needs a valid epoll descriptor. -/
def ioNew (fd : ℕ) (epollFd : Option ℕ) (addFd : Bool) : Option Io :=
  if fd > 127 then none
  else if epollFd = none then none
  else if !addFd then none
  else some ⟨fd, false⟩

/-- `io_destroy`, through `mainloop_remove_fd` and `io_cleanup`. -/
def ioDestroy (io : Option Io) (t : Table) : Table :=
  match io with
  | some ⟨fd, true⟩ => t.close (some fd)
  | _ => t

def btAttFree (att : Att) (t : Table) : Att × Table :=
  (⟨att.refCount, none, none⟩, btCryptoUnref att.crypto (ioDestroy att.io t))

def btAttRef (att : Att) : Att := { att with refCount := att.refCount + 1 }

def btAttUnref (att : Att) (t : Table) : Att × Table :=
  let att := { att with refCount := att.refCount - 1 }
  if att.refCount ≠ 0 then (att, t) else btAttFree att t

def btAttNew (o : AttOutcome) (fd : ℕ) (epollFd : Option ℕ) (t : Table) : Option Att × Table :=
  match ioNew fd epollFd o.addFd with
  | none => (none, (btAttFree ⟨0, none, none⟩ t).2)
  | some io =>
    let (crypto, t) := btCryptoNew K o.crypto t
    let att : Att := ⟨0, some io, crypto⟩
    if !o.readHandler then (none, (btAttFree att t).2)
    else if !o.disconnectHandler then (none, (btAttFree att t).2)
    else if !o.mtu then (none, (btAttFree att t).2)
    else if !o.buf then (none, (btAttFree att t).2)
    else (some (btAttRef att), t)

/-- `bt_att_set_close_on_unref(att, true)`. -/
def btAttSetCloseOnUnref (att : Att) : Att :=
  { att with io := att.io.map fun io => { io with closeOnDestroy := true } }

/-- The objects of a session: the transport, and the reference counts of the
    database and of the GATT server. -/
structure Session where
  att : Att
  db : ℕ
  gatt : ℕ
deriving DecidableEq

/-- How `server_create` ends. -/
inductive Created
  | failed
  | undefined
  | created (s : Session)
deriving DecidableEq

/-- `server_create`. `bt_gatt_server_new` takes a reference of the database
    and of the transport. A failure of `populate_db` leads to the release of
    the string literal. -/
def serverCreate (o : CreateOutcome) (fd : ℕ) (epollFd : Option ℕ) (t : Table) :
    Created × Table :=
  match btAttNew K o.att fd epollFd t with
  | (none, t) => (.failed, t)
  | (some att, t) =>
    let att := btAttSetCloseOnUnref att
    let db := 1
    let s : Session := ⟨btAttRef att, db + 1, 1⟩
    if !o.populateDb then (.undefined, t) else (.created s, t)

/-- `disconnect_cb`: the connection's entry is destroyed, and the transport is
    held over the calls of the disconnect callbacks. -/
def disconnectCb (s : Session) (t : Table) : Session × Table :=
  let t := ioDestroy s.att.io t
  let att := btAttRef { s.att with io := none }
  let (att, t) := btAttUnref att t
  ({ s with att := att }, t)

/-- `server_destroy`: the last reference of the GATT server releases its
    references of the database and of the transport. -/
def serverDestroy (s : Session) (t : Table) : Session × Table :=
  let s := { s with gatt := s.gatt - 1 }
  let (s, t) :=
    if s.gatt ≠ 0 then (s, t)
    else
      let (att, t) := btAttUnref s.att t
      ({ s with db := s.db - 1, att := att }, t)
  ({ s with db := s.db - 1 }, t)

/-- `restart_advert` after the device has been opened: it is closed again. -/
def restartAdvert (t : Table) : Table :=
  let (dd, t) := t.openNew K
  t.close (some dd)

def l2capLeAttListenAndAccept (o : AcceptOutcome) (t : Table) : Option ℕ × Table :=
  if !o.socket then (none, t)
  else
    let (sk, t) := t.openNew K
    if !(o.bind && o.setSecurity && o.listen && o.select && o.accept) then
      (none, t.close (some sk))
    else
      let (nsk, t) := t.openNew K
      (some nsk, t.close (some sk))

end Functions

/-- The reference counts of the transport, the database and the GATT server
    when the last pointer to them goes away. -/
structure Refs where
  att : ℕ
  db : ℕ
  gatt : ℕ
deriving DecidableEq

inductive Phase
  | looping
  | left
  | gone
deriving DecidableEq

/-- The state of the process at the loop head: the descriptor table, the
    static variables, and the counts that past sessions have left. -/
structure Proc where
  phase : Phase
  table : Table
  dd : Option ℕ
  fd : Option ℕ
  epollFd : Option ℕ
  refs : List Refs
deriving DecidableEq

/-- The state before the first iteration. Static variables are zero. -/
def Proc.start (inherited : Finset ℕ) : Proc where
  phase := .looping
  table := ⟨∅, inherited, []⟩
  dd := some 0
  fd := some 0
  epollFd := some 0
  refs := []

section Loop

variable (K : Allocator)

/-- `gatt_service`. A session that is started runs until the client
    disconnects; `mainloop_run` then closes the epoll descriptor. -/
def gattService (o : GattOutcome) (fd : ℕ) (p : Proc) : Proc :=
  let (epollFd, t) :=
    if o.epollCreate then
      let (n, t) := p.table.openNew K
      (some n, t)
    else (none, p.table)
  let p := { p with epollFd := epollFd }
  match serverCreate K o.create fd epollFd t with
  | (.failed, t) => { p with table := t.close (some fd), refs := p.refs ++ [⟨0, 0, 0⟩] }
  | (.undefined, t) => { p with phase := .gone, table := t }
  | (.created s, t) =>
    if !o.disconnects then { p with phase := .gone, table := t }
    else
      let (s, t) := disconnectCb s t
      let t := t.close epollFd
      let (s, t) := serverDestroy s t
      { p with
        table := t
        epollFd := some 0
        refs := p.refs ++ [⟨s.att.refCount, s.db, s.gatt⟩] }

namespace Proc

/-- One iteration of the loop. Without a device the process exits. -/
def iterate (o : Iteration) (p : Proc) : Proc :=
  if !o.advertOpen then { p with phase := .gone }
  else
    let t := restartAdvert K p.table
    if !o.advert then { p with table := t }
    else if !o.openDev then { p with phase := .gone, table := t }
    else
      let (dd, t) := t.openNew K
      match l2capLeAttListenAndAccept K o.accept t with
      | (none, t) => { p with dd := some dd, fd := none, table := t.close (some dd) }
      | (some fd, t) =>
        let p := gattService K o.gatt fd { p with dd := some dd, fd := some fd, table := t }
        if p.phase = .gone then p
        else { p with table := (p.table.close (some fd)).close (some dd) }

/-- The closes after the loop. -/
def leave (p : Proc) : Proc :=
  { p with phase := .left, table := (p.table.close p.fd).close p.dd }

end Proc

/-- An iteration, or the end of the loop because `bail` is set. -/
inductive LoopEvent
  | iterate (o : Iteration)
  | leave
deriving DecidableEq

/-- The loop over any sequence of outcomes. Once it has been left, or the
    process is gone, nothing more happens. -/
def loopMachine : StepMachine Proc LoopEvent Empty where
  step p i := match p.phase, i with
    | .looping, .iterate o => ([], some (p.iterate K o))
    | .looping, .leave => ([], some p.leave)
    | _, _ => ([], some p)

end Loop

end Wallclock
