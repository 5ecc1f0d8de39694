import LanguageClient.LanguageServer.Run
import LanguageClient.Scripted.Server

/-!
# `LanguageClient.Scripted.Handshake`: a server that insists on the handshake

The first message has to be `initialize` and the second `initialized`; otherwise
the server hangs up. Then it collects what comes up to `exit`, acknowledges
`shutdown`, and hangs up in the end.

- `StrictServer`: what the server waits for and has collected.
- `StrictServer.script`: what it does about each message.
- `Visit.run`: what comes of a client's visit.
-/

set_option autoImplicit false

namespace LanguageClient.Scripted

open LanguageServer (Answer)

/-- What the server waits for. -/
inductive Awaited where
  | greeting
  | confirmation
  /-- Anything up to `exit`. -/
  | session
  | nothing
  deriving DecidableEq, Repr

/-- A server that insists on the handshake. -/
structure StrictServer where
  /-- Whether it announces that it is ready. -/
  announces : Bool
  awaited : Awaited := .greeting
  /-- The messages after the handshake, up to `exit`. -/
  collected : List Json := []
  deriving DecidableEq, Repr

namespace StrictServer

/-- Whether the handshake has gone through. -/
def isComplete (h : StrictServer) : Bool := h.awaited == .session || !h.collected.isEmpty

/-- The result of `initialize`. -/
def initializeResult : Json :=
  .object
    [("capabilities", .object [("textDocumentSync", .nat 1)]),
      ("serverInfo", .object [("name", .string "fake-beef-lsp"), ("version", .string "0.0.1")])]

/-- The announcement that the server is ready. -/
def announcement : Move := .message (.notification { method := "beef/initialized", params := none })

/-- A response to a message. -/
def respond (m : Json) (result : Json) : Move :=
  .send (responseFields ((m.get? "id").getD .null) (some result) none).print

/-- Give up. -/
def leave (h : StrictServer) : List Move × StrictServer :=
  ([.hangUp], { h with awaited := .nothing })

/-- What the server does about a message. -/
def script : Script StrictServer := fun h m =>
  let isMethod (name : String) := m.get? "method" == some (.string name)
  match h.awaited with
  | .greeting =>
    if isMethod "initialize" then
      ([respond m initializeResult], { h with awaited := .confirmation })
    else h.leave
  | .confirmation =>
    if isMethod "initialized" then
      (if h.announces then [announcement] else [], { h with awaited := .session })
    else h.leave
  | .session =>
    let h := { h with collected := h.collected ++ [m] }
    if isMethod "shutdown" then ([respond m .null], h)
    else if isMethod "exit" then h.leave
    else ([], h)
  | .nothing => ([], h)

end StrictServer

/-! ### Visits -/

/-- What a client does at such a server: it sends notifications, and unless it
leaves again it shakes hands and opens and closes documents; then it closes the
connection. -/
structure Visit where
  notifications : List String := []
  leaves : Bool := false
  rootUri : Option String := none
  documents : List Document := []
  closed : List String := []

/-- What came of a visit. -/
structure Visited where
  /-- The answers of the client's operations, in order. -/
  answers : List Answer
  server : StrictServer
  /-- The announcements that reached the client. -/
  announced : List Rpc.Notification

namespace Visit

/-- The client of a visit, which has sent its notifications. -/
def client (v : Visit) : LanguageServer.Client Unit :=
  let rpc : Rpc.Client Unit := {}
  { rpc := v.notifications.foldl (fun c m => c.step (.notify m none))
      (rpc.onNotification "beef/initialized" ()) }

/-- What the client tells about documents. -/
def tidings (v : Visit) : List (LanguageServer.Event Unit) :=
  v.documents.map .openDocument ++ v.closed.map .closeDocument

/-- Shake hands and tell the server about documents. -/
def enter (v : Visit) (l : Line Unit) (h : StrictServer) :
    List Answer × Line Unit × StrictServer :=
  if v.leaves then ([], l, h)
  else
    let x := l.await StrictServer.script h (l.client.handshake v.rootUri)
    let (answers, client) := x.line.client.run v.tidings
    (x.answer.toList ++ answers, { x.line with client }, x.state)

/-- The whole visit. -/
def run (v : Visit) (h : StrictServer) : Visited :=
  let (answers, line, server) := v.enter { client := v.client } h
  let x := line.await StrictServer.script server line.client.close
  let y := x.line.rest StrictServer.script x.state
  { answers := answers ++ x.answer.toList
    server := y.state
    announced := y.line.client.rpc.handled.filterMap fun m =>
      match m with
      | .notification _ n => some n
      | .request _ => none }

end Visit

end LanguageClient.Scripted
