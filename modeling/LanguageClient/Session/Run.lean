import LanguageClient.Session.Basic

/-!
# `LanguageClient.Session.Run`: runs of a session

A run mixes what the owner of the session asks for with what the world decides:
whether the server is reached, what it sends and when, which requests run out of
time, and when a spawned server exits. While the owner waits for a stop to end,
nothing else is asked for.

- `Event`: a step of a run.
- `Session.step`, `Session.run`: what steps do.
- `Session.settle`: go on until nothing more can be done.
-/

set_option autoImplicit false

namespace LanguageClient.Session

/-- A step of a run. -/
inductive Event where
  | start
  | openDocument (d : Document)
  | closeDocument (uri : String)
  | stop
  /-- The address was dialed, or the system refused to. -/
  | dialed (refusal : Option SystemError)
  /-- The server was spawned, or the system refused to. -/
  | spawned (verdict : Except SystemError Nat)
  /-- The handshake or the stop goes on. -/
  | resume
  /-- The time of the handshake or of the stop is over. -/
  | expire
  /-- A step of the connection. -/
  | ambient (e : Rpc.Event Handler)
  /-- A step of the spawned server. -/
  | child (e : ChildProcess.Event)

/-- Whether the owner of the session asks for a step. -/
def Event.isRequest : Event → Bool
  | .start | .openDocument _ | .closeDocument _ | .stop => true
  | _ => false

/-- What a step does when it can be taken. -/
def take (s : Session) : Event → Session
  | .start => s.start.toOption.getD s
  | .openDocument d => ((s.openDocument d).toOption.map Prod.snd).getD s
  | .closeDocument uri => (s.closeDocument uri).2
  | .stop => s.stop
  | .dialed refusal => s.dialed refusal
  | .spawned verdict => s.spawned verdict
  | .resume => s.resume
  | .expire => s.expire
  | .ambient e => if e.isAmbient then s.ambient e else s
  | .child e => if e.isAmbient then s.child e else s

/-- What a step does. -/
def step (s : Session) (e : Event) : Session :=
  if e.isRequest ∧ s.isStopping then s else s.take e

/-- What steps do, one after another. -/
def run (s : Session) (events : List Event) : Session := events.foldl step s

/-- The messages that the client has queued so far, in order. -/
def messages (s : Session) : List Rpc.Message :=
  (s.connection.map fun c => c.client.rpc.accepted).getD []

/-! ### Going on by itself -/

/-- A step that the connection can take. -/
def next? (s : Session) (refusal : Option String) : Option (Rpc.Event Handler) :=
  s.connection.bind fun c => c.client.next? refusal

/-- Let the connection and what is under way go on until nothing more can be
done, at most `fuel` steps. -/
def settle (refusal : Option String) : Nat → Session → Session
  | 0, s => s
  | fuel + 1, s =>
    let s := s.resume
    match s.next? refusal with
    | some e => settle refusal fuel (s.ambient e)
    | none => s

end LanguageClient.Session
