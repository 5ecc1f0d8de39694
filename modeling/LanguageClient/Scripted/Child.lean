import LanguageClient.ChildProcess.Manager
import LanguageClient.Scripted.Command
import LanguageClient.Scripted.Server

/-!
# `LanguageClient.Scripted.Child`: a manager and the child that it has started

The child does what its command says as far as it can: copying waits for the
input to end, and a pause lasts until someone waits for the child. Its exit is
noticed when someone waits for that; that of a killed child, when someone waits
for anything.

- `Workplace`: a manager, the stream that was claimed, and the child at work.
- `Workplace.advance`: everything goes on as far as it can.
- `Workplace.start`, `Workplace.stop`, `Workplace.awaitExit`: the child's life.
-/

set_option autoImplicit false

namespace LanguageClient.Scripted

open ChildProcess (Manager StopMode)

/-- A child at work. -/
structure Worker where
  acts : List Act
  /-- How many texts it has taken from its input. -/
  taken : Nat := 0
  ended : Bool := false
  deriving DecidableEq, Repr

/-- A manager, the stream that was claimed, and the child at work. -/
structure Workplace where
  manager : Manager
  claimed : Option Stream := none
  worker : Option Worker := none
  deriving DecidableEq, Repr

namespace Workplace

/-- The number of the child at work. -/
def number (w : Workplace) : Nat := w.manager.children.length - 1

/-- Change the child's stream, whoever holds it. -/
def onStream (w : Workplace) (f : Stream → Stream) : Workplace :=
  match w.manager.unclaimed with
  | some s => { w with manager := { w.manager with unclaimed := some (f s) } }
  | none => { w with claimed := w.claimed.map f }

/-- The child's stream, if someone holds it. -/
def stream? (w : Workplace) : Option Stream := w.manager.unclaimed.or w.claimed

/-- The child writes. -/
def emit (w : Workplace) (outlet : Outlet) (bytes : List UInt8) : Workplace :=
  match outlet with
  | .output => w.onStream fun s => s.arrive bytes
  | .error => { w with manager := w.manager.step (.errorBytes w.number bytes) }
  | .nowhere => w

/-- The child has come to its end: its streams end. -/
def finish (w : Workplace) (worker : Worker) : Workplace :=
  let w := w.onStream fun s => s.finish.1
  { w with
    manager := w.manager.step (.errorEnd w.number)
    worker := some { worker with acts := [], ended := true } }

/-- Carry out acts as far as possible. -/
def perform (patient : Bool) (w : Workplace) (taken : Nat) : List Act → Workplace
  | [] => w.finish { acts := [], taken }
  | .write outlet bytes :: rest => perform patient (w.emit outlet bytes) taken rest
  | .pause time :: rest =>
    if patient ∧ time ≤ Act.shortPause then perform patient w taken rest
    else { w with worker := some { acts := .pause time :: rest, taken } }
  | .copyInput outlet :: rest =>
    let texts := (w.stream?.map fun s => s.written.drop taken).getD []
    let w := w.emit outlet (texts.flatMap Text.encode)
    let taken := taken + texts.length
    if w.stream?.all fun s => s.writer == .finished then perform patient w taken rest
    else { w with worker := some { acts := .copyInput outlet :: rest, taken } }

/-- The exits that have happened are noticed. -/
def notice (w : Workplace) : Workplace :=
  let m := w.manager
  { w with manager := (List.range m.children.length).foldl (fun m child => m.step (.reap child)) m }

/-- Everything goes on as far as it can. -/
def advance (w : Workplace) (patient : Bool) : Workplace :=
  let w := if patient then w.notice else w
  match w.worker with
  | none => w
  | some worker =>
    let w := w.onStream fun s => s.drain (refusal worker.ended)
    if worker.ended then w else w.perform patient worker.taken worker.acts

/-- Start the child. -/
def start (w : Workplace) (pid : Nat) : Except ChildProcess.Failure Workplace :=
  let m := w.manager
  let acts := Command.spawn m.command m.arguments m.directory
  (m.start (acts.map fun _ => pid)).map fun manager =>
    { w with manager, worker := acts.toOption.map fun acts => { acts } }

/-- The child exits, and that is noticed. -/
def reap (w : Workplace) : Workplace :=
  { w with manager := (w.manager.step (.exit w.number)).step (.reap w.number) }

/-- The child is killed by a signal. -/
def die (w : Workplace) : Workplace :=
  let w := { w with manager := w.manager.step (.exit w.number) }
  match w.worker with
  | some worker => if worker.ended then w else w.finish worker
  | none => w

/-- Stop the child: it ends at the first signal. -/
def stop (w : Workplace) (mode : StopMode) : Except ChildProcess.Failure Workplace :=
  (w.manager.beginStop mode).map fun manager =>
    let w := { w with manager }.die.reap
    { w with manager := w.manager.proceed.2 }

/-- Kill the child. -/
def kill (w : Workplace) : Workplace :=
  if w.manager.isRunning then { w with manager := w.manager.kill }.die else w

/-- Hand out the child's stream. -/
def claim (w : Workplace) : Except ChildProcess.Failure Workplace :=
  w.manager.claim.map fun (stream, manager) => { w with manager, claimed := some stream }

/-- Wait for the child to exit by itself. -/
def awaitExit (w : Workplace) : Workplace :=
  let w := w.advance true
  match w.worker with
  | some worker => if worker.ended then w.reap else w
  | none => w

end Workplace

end LanguageClient.Scripted
