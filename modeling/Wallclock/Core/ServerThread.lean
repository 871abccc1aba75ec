import Wallclock.Library.Machine

/-!
# The Server Thread

The loop of `server_thread` of `server.c`, call by call, with what
`restart_advert`, `l2cap_le_att_listen_and_accept`, `gatt_service` and
`mainloop_run` do in it.

The thread is its program counter over the calls of these functions, with the
two flags that are tested on the way: `bail`, which the handler of SIGUSR1
sets, and `epoll_terminate`, which the disconnect of the client sets. An input
says how the next call ends, or that the signal arrives. A signal that arrives
in a blocked system call makes the call fail with EINTR; the handler was
installed without SA_RESTART. What the Bluetooth library does about a signal in
`hci_send_req` is its own business: there the signal only sets the flag, and the
request ends in either way afterwards.

The start state is the first test of `bail`, with the handler installed. The
machine stops where the process exits.

What the calls do with descriptors is left to `Core.Resources`.

## Main definitions

* `AdvertCall`: The calls of `restart_advert` on the open device.
* `ListenCall`: The calls that prepare the listening socket.
* `Pc`: The next call of the thread.
* `Pc.blocks`: The calls that a signal interrupts.
* `Thread`: The state of the thread.
* `IoEvent`: What `epoll_wait` reports about the connection.
* `ThreadEvent`: How a call ends, or the signal.
* `ThreadAction`: What the thread does towards clients.
* `Thread.advance`: The next call of the thread.
* `serverThread`: The thread and the signal.
-/

namespace Wallclock

/-- The calls `restart_advert` makes on the device, up to the one whose result
    it returns. -/
inductive AdvertCall
  | setFilter
  | sendCmd1
  | read1
  | sendCmd2
  | read2
  | setParameters
  | setEnable
deriving DecidableEq

def AdvertCall.next : AdvertCall → Option AdvertCall
  | .setFilter => some .sendCmd1
  | .sendCmd1 => some .read1
  | .read1 => some .sendCmd2
  | .sendCmd2 => some .read2
  | .read2 => some .setParameters
  | .setParameters => some .setEnable
  | .setEnable => none

/-- The calls on the listening socket before `select`. -/
inductive ListenCall
  | bind
  | setSecurity
  | listen
deriving DecidableEq

def ListenCall.next : ListenCall → Option ListenCall
  | .bind => some .setSecurity
  | .setSecurity => some .listen
  | .listen => none

/-- The next call of the thread. -/
inductive Pc
  /-- `while (!bail)` -/
  | loopHead
  | advertOpen
  | advert (call : AdvertCall)
  /-- `hci_close_dev(dd)` and the return of `rc`. -/
  | advertClose (ok : Bool)
  | openDev
  | socket
  | listening (call : ListenCall)
  | select
  | accept
  /-- `close(sk)` and the return of `nsk`. -/
  | closeListen (accepted : Bool)
  | mainloopInit
  | serverCreate
  /-- `close(fd)` in `gatt_service`. -/
  | createFailed
  /-- `while (!epoll_terminate)` -/
  | mainloopTest
  | epollWait
  | serverDestroy
  | closeFd
  | closeDev
  /-- The two calls after the loop. -/
  | finalCloseFd
  | finalCloseDev
  | returned
deriving DecidableEq

/-- The system calls in which the thread waits and which a signal interrupts. -/
def Pc.blocks : Pc → Bool
  | .advert .read1 => true
  | .advert .read2 => true
  | .select => true
  | .accept => true
  | .epollWait => true
  | _ => false

structure Thread where
  pc : Pc
  bail : Bool
  epollTerminate : Bool
deriving DecidableEq

def Thread.start : Thread := ⟨.loopHead, false, false⟩

/-- What `epoll_wait` reports: a write of the client, which may make the
    process exit, other traffic, or the end of the connection. -/
inductive IoEvent
  | write (exits : Bool)
  | other
  | hangup
deriving DecidableEq

/-- The signal, between two calls or in a blocked one, or how the next call
    ends. -/
inductive ThreadEvent
  | signal
  | interrupt
  | ok
  | fail
  | io (event : IoEvent)
deriving DecidableEq

inductive ThreadAction
  /-- The test of `bail` is passed. -/
  | iteration
  | accepted
  | session
  | write
  | sessionEnd
deriving DecidableEq

/-- The next call of the thread. An input that does not answer the call leaves
    the thread where it is. -/
def Thread.advance (s : Thread) (e : ThreadEvent) : List ThreadAction × Option Thread :=
  match s.pc, e with
  | .loopHead, .ok =>
    if s.bail then ([], some { s with pc := .finalCloseFd })
    else ([.iteration], some { s with pc := .advertOpen })
  | .advertOpen, .ok => ([], some { s with pc := .advert .setFilter })
  | .advertOpen, .fail => ([], none)
  | .advert call, .ok => match call.next with
    | some call => ([], some { s with pc := .advert call })
    | none => ([], some { s with pc := .advertClose true })
  | .advert _, .fail => ([], some { s with pc := .advertClose false })
  | .advertClose true, .ok => ([], some { s with pc := .openDev })
  | .advertClose false, .ok => ([], some { s with pc := .loopHead })
  | .openDev, .ok => ([], some { s with pc := .socket })
  | .openDev, .fail => ([], none)
  | .socket, .ok => ([], some { s with pc := .listening .bind })
  | .socket, .fail => ([], some { s with pc := .closeDev })
  | .listening call, .ok => match call.next with
    | some call => ([], some { s with pc := .listening call })
    | none => ([], some { s with pc := .select })
  | .listening _, .fail => ([], some { s with pc := .closeListen false })
  -- An error and a timeout of `select` end alike.
  | .select, .ok => ([], some { s with pc := .accept })
  | .select, .fail => ([], some { s with pc := .closeListen false })
  | .accept, .ok => ([.accepted], some { s with pc := .closeListen true })
  | .accept, .fail => ([], some { s with pc := .closeListen false })
  | .closeListen true, .ok => ([], some { s with pc := .mainloopInit })
  | .closeListen false, .ok => ([], some { s with pc := .closeDev })
  | .mainloopInit, .ok => ([], some { s with pc := .serverCreate, epollTerminate := false })
  | .serverCreate, .ok => ([.session], some { s with pc := .mainloopTest })
  | .serverCreate, .fail => ([], some { s with pc := .createFailed })
  | .createFailed, .ok => ([], some { s with pc := .closeFd })
  | .mainloopTest, .ok =>
    if s.epollTerminate then ([], some { s with pc := .serverDestroy })
    else ([], some { s with pc := .epollWait })
  | .epollWait, .io (.write exits) =>
    ([.write], if exits then none else some { s with pc := .mainloopTest })
  | .epollWait, .io .other => ([], some { s with pc := .mainloopTest })
  | .epollWait, .io .hangup => ([], some { s with pc := .mainloopTest, epollTerminate := true })
  -- `if (nfds < 0) continue;`
  | .epollWait, .fail => ([], some { s with pc := .mainloopTest })
  | .serverDestroy, .ok => ([.sessionEnd], some { s with pc := .closeFd })
  | .closeFd, .ok => ([], some { s with pc := .closeDev })
  | .closeDev, .ok => ([], some { s with pc := .loopHead })
  | .finalCloseFd, .ok => ([], some { s with pc := .finalCloseDev })
  | .finalCloseDev, .ok => ([], some { s with pc := .returned })
  | _, _ => ([], some s)

/-- The thread, with the signal. A call that the signal interrupts fails. -/
def serverThread : StepMachine Thread ThreadEvent ThreadAction where
  step s
    | .signal => ([], some { s with bail := true })
    | .interrupt =>
      if s.pc.blocks then Thread.advance { s with bail := true } .fail
      else ([], some { s with bail := true })
    | e => s.advance e

end Wallclock
