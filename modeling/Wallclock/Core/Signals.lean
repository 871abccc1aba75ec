import Mathlib.Data.Finset.Basic
import Mathlib.Logic.Function.Basic
import Wallclock.Library.Machine

/-!
# Signals between the Threads

The start-up and the signal handling of `main` and `server_thread`.

Each thread is its program counter over the calls that concern signals, with
its signal mask. Signal dispositions and signals sent to the process are
shared; a signal sent by `pthread_kill` is pending for its thread. The inputs
of the machine are the scheduler's: a thread makes its next call, a signal is
sent to the process, or a pending signal is delivered to a thread that does
not block it. A signal handler runs to its end in one step.

The start state is the one after `main` has blocked the signals.
`pthread_create` hands the creating thread's mask to the new one. The two
later calls of `pthread_sigmask` change the mask they were given a valid
argument for and do not fail.

A signal without a handler has its default disposition, which for each of
these signals is to kill the process. The machine stops there, as it does
when the process exits.

## Main definitions

* `Signal`: The signals of the program.
* `Handler`: The handlers, `term` of `main.c` and `term` of `server.c`.
* `MainPc`, `ServerPc`: The next call of each thread.
* `Process`: The state of the two threads.
* `Process.start`: The state after the initial blocking.
* `Process.mainStep`, `Process.serverStep`: The next call of each thread.
* `Process.act`: Acting on a delivered signal.
* `SignalEvent`: The choices of the scheduler.
* `SignalAction`: What the environment sees of the signal handling.
* `signalMachine`: The two threads.
-/

namespace Wallclock

inductive Signal
  | term
  | int
  | usr1
  | usr2
deriving DecidableEq

/-- `term` of `main.c` forwards to the server thread, `term` of `server.c`
    sets `bail`. -/
inductive Handler
  | forward
  | bail
deriving DecidableEq

/-- The next call of `main`. -/
inductive MainPc
  | create
  | unblock
  | actionTerm
  | actionInt
  | notify
  | join
deriving DecidableEq

/-- The next call of the server thread. `loop` is the test of `bail`, and an
    iteration of the loop if it fails. -/
inductive ServerPc
  | absent
  | unblock
  | action
  | loop
  | returned
deriving DecidableEq

structure Process where
  main : MainPc
  server : ServerPc
  mainMask : Finset Signal
  serverMask : Finset Signal
  action : Signal → Option Handler
  /-- Signals sent to the process and not delivered yet. -/
  pending : Finset Signal
  /-- Signals sent to the server thread and not delivered yet. -/
  serverPending : Finset Signal
  bail : Bool

namespace Process

/-- The state after `main` has blocked the four signals. -/
def start : Process where
  main := .create
  server := .absent
  mainMask := {.int, .term, .usr1, .usr2}
  serverMask := ∅
  action := fun _ => none
  pending := ∅
  serverPending := ∅
  bail := false

/-- The next call of `main`, or nothing when the process ends. Only
    `pthread_create` can fail. -/
def mainStep (s : Process) (ok : Bool) : Option Process :=
  match s.main with
  | .create =>
    if ok then some { s with main := .unblock, server := .unblock, serverMask := s.mainMask }
    else none
  | .unblock => some { s with main := .actionTerm, mainMask := s.mainMask \ {.int, .term} }
  | .actionTerm =>
    some { s with main := .actionInt, action := Function.update s.action .term (some .forward) }
  | .actionInt =>
    some { s with main := .notify, action := Function.update s.action .int (some .forward) }
  | .notify => some { s with main := .join }
  | .join =>
    -- `pthread_join` blocks until the server thread has returned.
    if s.server = .returned then none else some s

/-- The next call of the server thread, or nothing when the process exits,
    which it does where an iteration cannot open the device. -/
def serverStep (s : Process) (ok : Bool) : Option Process :=
  match s.server with
  | .absent => some s
  | .unblock => some { s with server := .action, serverMask := s.serverMask \ {.usr1} }
  | .action =>
    some { s with server := .loop, action := Function.update s.action .usr1 (some .bail) }
  | .loop =>
    if s.bail then some { s with server := .returned }
    else if ok then some s
    else none
  | .returned => some s

end Process

/-- What happens next: a call of a thread, a signal sent to the process, or
    the delivery of a pending signal to a thread. -/
inductive SignalEvent
  | main (ok : Bool)
  | server (ok : Bool)
  | kill (sig : Signal)
  | deliverMain (sig : Signal)
  | deliverServer (sig : Signal)
deriving DecidableEq

inductive SignalAction
  /-- A signal is acted on with its default disposition. -/
  | killed (sig : Signal)
  /-- The handler of `main` sends SIGUSR1 to the server thread. -/
  | forwarded
deriving DecidableEq

/-- Acting on a signal that has been taken from the pending ones. A signal
    for a thread that has returned is lost. -/
def Process.act (s : Process) (sig : Signal) : List SignalAction × Option Process :=
  match s.action sig with
  | none => ([.killed sig], none)
  | some .forward =>
    if s.server = .absent ∨ s.server = .returned then ([.forwarded], some s)
    else ([.forwarded], some { s with serverPending := insert .usr1 s.serverPending })
  | some .bail => ([], some { s with bail := true })

/-- The two threads. An event that is not possible in a state changes
    nothing; the signals sent to the process are SIGTERM and SIGINT. -/
def signalMachine : StepMachine Process SignalEvent SignalAction where
  step s
    | .main ok => ([], s.mainStep ok)
    | .server ok => ([], s.serverStep ok)
    | .kill sig =>
      if sig = .term ∨ sig = .int then ([], some { s with pending := insert sig s.pending })
      else ([], some s)
    | .deliverMain sig =>
      if sig ∈ s.pending ∧ sig ∉ s.mainMask then
        Process.act { s with pending := s.pending.erase sig } sig
      else ([], some s)
    | .deliverServer sig =>
      if s.server = .absent ∨ s.server = .returned ∨ sig ∈ s.serverMask then ([], some s)
      else if sig ∈ s.serverPending then
        Process.act { s with serverPending := s.serverPending.erase sig } sig
      else if sig ∈ s.pending then
        Process.act { s with pending := s.pending.erase sig } sig
      else ([], some s)

end Wallclock
