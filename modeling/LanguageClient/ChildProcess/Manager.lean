import LanguageClient.ChildProcess.Monitor
import LanguageClient.Path
import LanguageClient.Stream
import LanguageClient.SystemError

/-!
# `LanguageClient.ChildProcess.Manager`: the life of a child process

A manager starts a child and hands out, once, the stream over its standard input
and output. For each child it has started somebody waits for the exit, which the
manager's state then shows, whichever child is the current one by that time.
Stopping takes time: the child gets a signal and has to exit, and if it lingers
it is killed.

- `Manager.start`, `Manager.claim`, `Manager.kill`: what is done at once.
- `Manager.beginStop`, `Manager.overdue`, `Manager.proceed`: stopping.
- `Manager.reap`: the exit of a child is noticed.
- `Event`, `Manager.step`, `Manager.run`: runs of a manager.
-/

set_option autoImplicit false

namespace LanguageClient.ChildProcess

/-- What a manager knows of its child. -/
inductive State where
  | notStarted
  | running (pid : Nat)
  | stopped
  deriving DecidableEq, Repr

/-- The process id of a running child. -/
def State.pid? : State → Option Nat
  | .running pid => some pid
  | _ => none

/-- How a child is stopped. -/
inductive StopMode where
  /-- Ask it to end, and kill it if it lingers. -/
  | graceful
  | force
  deriving DecidableEq, Repr

/-- What is sent to a child. -/
inductive Signal where
  | terminate
  | kill
  deriving DecidableEq, Repr

/-- The signal that stopping begins with. -/
def StopMode.signal : StopMode → Signal
  | .graceful => .terminate
  | .force => .kill

/-- Why an operation fails. -/
inductive Failure where
  | spawn (command : String) (cause : SystemError)
  | notStarted
  | alreadyStarted
  deriving DecidableEq, Repr

/-- The text of a failure. -/
def Failure.message : Failure → String
  | .spawn command cause => "Failed to spawn '" ++ command ++ "': " ++ cause.message
  | .notStarted => "Process not started"
  | .alreadyStarted => "Process already started"

/-- A child that was started. -/
structure Child where
  pid : Nat
  monitor : Monitor
  /-- The signals sent to it, in order. -/
  signals : List Signal := []
  exited : Bool := false
  /-- Whether its exit has been noticed. -/
  reaped : Bool := false
  deriving DecidableEq, Repr

/-- The manager of a child process. -/
structure Manager where
  command : String
  arguments : List String := []
  directory : Option Path := none
  state : State := .notStarted
  /-- Whether the lines of the next child's error stream are wanted. -/
  reports : Bool := false
  /-- The children started so far; the last one is the current one. -/
  children : List Child := []
  /-- The stream of the last child, until it is handed out. -/
  unclaimed : Option Stream := none
  /-- Whether the manager waits for the exit of the current child. -/
  stopping : Bool := false
  deriving DecidableEq, Repr

namespace Manager

/-- Whether a child is running, as far as the manager knows. -/
def isRunning (m : Manager) : Bool := m.state.pid?.isSome

/-- Change the child of a number; children are counted from zero. -/
def update (m : Manager) (child : Nat) (f : Child → Child) : Manager :=
  { m with children := m.children.modify child f }

/-- Change the current child. -/
def updateCurrent (m : Manager) (f : Child → Child) : Manager :=
  m.update (m.children.length - 1) f

/-- The current child, which was started last. -/
def current? (m : Manager) : Option Child := m.children.getLast?

/-- Send a signal to the current child. -/
def signal (m : Manager) (s : Signal) : Manager :=
  m.updateCurrent fun c => { c with signals := c.signals ++ [s] }

/-- Stop reading the error stream of the current child. -/
def stopMonitor (m : Manager) : Manager :=
  m.updateCurrent fun c => { c with monitor := c.monitor.stop }

/-! ### At once -/

/-- Ask for the lines of the error stream of the next child. -/
def onErrorLine (m : Manager) : Manager := { m with reports := true }

/-- Start a child. The system gives it a process id, or refuses. -/
def start (m : Manager) (verdict : Except SystemError Nat) : Except Failure Manager :=
  if m.isRunning then .error .alreadyStarted
  else
    match verdict with
    | .error cause => .error (.spawn m.command cause)
    | .ok pid =>
      .ok
        { m with
          state := .running pid
          reports := false
          children := m.children ++ [{ pid, monitor := { reports := m.reports } }]
          unclaimed := some {} }

/-- Hand out the stream of the child. -/
def claim (m : Manager) : Except Failure (Stream × Manager) :=
  match m.unclaimed with
  | some stream => .ok (stream, { m with unclaimed := none })
  | none => .error .notStarted

/-- Kill the child without waiting for its exit. -/
def kill (m : Manager) : Manager :=
  if m.isRunning then { (m.signal .kill).stopMonitor with state := .stopped } else m

/-- The manager is dropped: a running child is killed. -/
def drop (m : Manager) : Manager := { m.kill with unclaimed := none }

/-! ### Stopping -/

/-- Finish stopping once the exit of the child is noticed; the result says
whether that was so. -/
def proceed (m : Manager) : Bool × Manager :=
  if m.stopping ∧ m.current?.all Child.reaped then
    (true, { m.stopMonitor with state := .stopped, stopping := false })
  else (false, m)

/-- Begin to stop the child: a stream that nobody has claimed is closed, and a
signal is sent. -/
def beginStop (m : Manager) (mode : StopMode) : Except Failure Manager :=
  if m.isRunning then .ok { m.signal mode.signal with unclaimed := none, stopping := true }
  else .error .notStarted

/-- The child lingers: kill it. -/
def overdue (m : Manager) : Manager := if m.stopping then m.signal .kill else m

/-! ### Children -/

/-- A child exits. -/
def exit (m : Manager) (child : Nat) : Manager := m.update child fun c => { c with exited := true }

/-- The exit of a child is noticed. -/
def reap (m : Manager) (child : Nat) : Manager :=
  match m.children[child]? with
  | some c =>
    if c.exited ∧ ¬c.reaped then
      { m.update child fun c => { c with reaped := true } with state := .stopped }
    else m
  | none => m

/-- The lines of all children's error streams, child after child. -/
def lines (m : Manager) : List String := m.children.flatMap fun c => c.monitor.lines

end Manager

/-! ### Runs -/

/-- A step of a manager or of its children. -/
inductive Event where
  | onErrorLine
  | start (verdict : Except SystemError Nat)
  | claim
  | kill
  | beginStop (mode : StopMode)
  | proceed
  | overdue
  | exit (child : Nat)
  | reap (child : Nat)
  | errorBytes (child : Nat) (bytes : List UInt8)
  | errorEnd (child : Nat)

/-- Whether a step is taken by a child or by those who wait for it, and not by
the owner of the manager. -/
def Event.isAmbient : Event → Bool
  | .exit _ | .reap _ | .errorBytes .. | .errorEnd _ => true
  | _ => false

namespace Manager

/-- What a step does. While the manager waits for an exit, the owner can do
nothing else. -/
def step (m : Manager) : Event → Manager
  | .onErrorLine => if m.stopping then m else m.onErrorLine
  | .start verdict => if m.stopping then m else (m.start verdict).toOption.getD m
  | .claim => if m.stopping then m else ((m.claim).toOption.map Prod.snd).getD m
  | .kill => if m.stopping then m else m.kill
  | .beginStop mode => if m.stopping then m else (m.beginStop mode).toOption.getD m
  | .proceed => m.proceed.2
  | .overdue => m.overdue
  | .exit child => m.exit child
  | .reap child => m.reap child
  | .errorBytes child bytes => m.update child fun c => { c with monitor := c.monitor.feed bytes }
  | .errorEnd child => m.update child fun c => { c with monitor := c.monitor.finish }

/-- What steps do, one after another. -/
def run (m : Manager) (events : List Event) : Manager := events.foldl step m

end Manager

end LanguageClient.ChildProcess
