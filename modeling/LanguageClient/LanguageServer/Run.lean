import LanguageClient.LanguageServer.Client

/-!
# `LanguageClient.LanguageServer.Run`: runs of a language server's client

A run mixes what the owner of the client asks for with what happens by itself:
the dispatcher, the writer, and whatever the server sends or fails to send. The
owner asks for one thing at a time: while an operation waits, no other begins.

- `Event`: a step of a run.
- `Client.step`, `Client.run`: what steps do, and the answers they give.
-/

set_option autoImplicit false

namespace LanguageClient

/-- Whether a step is taken by the dispatcher, the writer, the reader or the
other end, and not by the owner of the client. -/
def Rpc.Event.isAmbient {η : Type} : Rpc.Event η → Bool
  | .sendNext | .receiveNext | .stop => true
  | .write _ | .deliver _ | .finish | .breakOff _ => true
  | _ => false

namespace LanguageServer

/-- A step of a run. -/
inductive Event (η : Type) where
  | handshake (rootUri : Option String)
  | shutdown
  | close
  | openDocument (d : Document)
  | closeDocument (uri : String)
  /-- The operation under way goes on. -/
  | resume
  /-- The time of the operation under way is over. -/
  | expire
  | ambient (e : Rpc.Event η)

namespace Client

variable {η : Type}

/-- Whether no operation is under way. -/
def isIdle (c : Client η) : Bool :=
  match c.activity with
  | .idle => true
  | _ => false

/-- The answer of an operation that does not wait. -/
def settled (c : Client η) (r : Except Failure (Client η)) : Option Answer × Client η :=
  match r with
  | .ok c => (some .done, c)
  | .error e => (some (.failed e), c)

/-- What a step does, and the answer of the operation that it ends. -/
def step (c : Client η) : Event η → Option Answer × Client η
  | .handshake rootUri => if c.isIdle then c.handshake rootUri else (none, c)
  | .shutdown => if c.isIdle then c.shutdown else (none, c)
  | .close => if c.isIdle then c.close else (none, c)
  | .openDocument d => if c.isIdle then c.settled (c.openDocument d) else (none, c)
  | .closeDocument uri => if c.isIdle then c.settled (c.closeDocument uri) else (none, c)
  | .resume => c.resume
  | .expire => c.expire
  | .ambient e => (none, if e.isAmbient then { c with rpc := c.rpc.step e } else c)

/-- What steps do, one after another, and the answers in order. -/
def run (c : Client η) : List (Event η) → List Answer × Client η
  | [] => ([], c)
  | e :: events =>
    let (answer, c) := c.step e
    let (answers, c) := c.run events
    (answer.toList ++ answers, c)

end Client

end LanguageServer

end LanguageClient
