import LanguageClient.Json.Printer
import LanguageClient.LanguageServer.Client

/-!
# `LanguageClient.Scripted.Server`: a client and a server that follows a script

A script says what a server does about each message that reaches it. Client and
server take turns until nothing more happens; an operation that still waits then
runs out of time.

- `Move`, `Script`: what a server does, and when.
- `Line.converse`: client and server by turns.
- `Line.await`: the same, with an operation under way.
- `Reply.moves`: the moves of a server that has one reply to requests.
-/

set_option autoImplicit false

namespace LanguageClient.Scripted

open LanguageServer (Answer)

/-- What a server does. -/
inductive Move where
  /-- Send a payload. -/
  | send (payload : List Char)
  | hangUp
  deriving DecidableEq, Repr

/-- Send a message. -/
def Move.message (m : Rpc.Message) : Move := .send m.payload

/-- What a server with a state of its own does about a message. -/
abbrev Script (σ : Type) := σ → Json → List Move × σ

/-- What becomes of a text that the client writes to a server that has hung
up. -/
def refusal (gone : Bool) : Option String := if gone then some "Broken pipe" else none

/-- The message in a written frame. -/
def frameMessage (text : List Char) : Json :=
  match Framing.splitHeader? text with
  | some (_, body) => (Json.parse body).toOption.getD .null
  | none => .null

/-- A client and the server at the other end. -/
structure Line (η : Type) where
  client : LanguageServer.Client η := {}
  /-- Whether the server has hung up. -/
  gone : Bool := false
  /-- How many written frames the server has looked at. -/
  seen : Nat := 0

/-- What came of a conversation. -/
structure Exchange (η σ : Type) where
  line : Line η
  /-- The state of the script. -/
  state : σ
  /-- The answer of the operation that was under way, if it has ended. -/
  answer : Option Answer := none
  /-- The messages that reached the server, in order. -/
  messages : List Json := []

namespace Line

variable {η σ : Type}

/-- The server makes a move; one that has hung up makes no more. -/
def move (l : Line η) (m : Move) : Line η :=
  if l.gone then l
  else
    match m with
    | .send payload =>
      { l with
        client :=
          { l.client with rpc := l.client.rpc.arrive (Text.encode (Framing.frame payload)) } }
    | .hangUp =>
      { l with client := { l.client with rpc := l.client.rpc.step .finish }, gone := true }

/-- The messages that the server has not looked at. -/
def unseen (l : Line η) : List Json :=
  if l.gone then [] else (l.client.rpc.stream.written.drop l.seen).map frameMessage

/-- Let client and server go on by turns until nothing more happens; each makes
at most `fuel` steps. -/
def converse (script : Script σ) (patience : Nat) : Nat → Exchange η σ → Exchange η σ
  | 0, x => x
  | fuel + 1, x =>
    let (answer, client) := x.line.client.settle (refusal x.line.gone) patience
    let line := { x.line with client }
    let x := { x with line, answer := x.answer.or answer }
    match line.unseen with
    | [] => if answer.isSome then converse script patience fuel x else x
    | m :: _ =>
      let (moves, state) := script x.state m
      let line := moves.foldl move { line with seen := line.seen + 1 }
      converse script patience fuel { x with line, state, messages := x.messages ++ [m] }

/-- How long client and server go on at most. -/
def patience : Nat := Nat.pow 10 6

/-- Let client and server go on. -/
def rest (script : Script σ) (l : Line η) (state : σ) : Exchange η σ :=
  converse script patience patience { line := l, state }

/-- Let client and server go on with an operation that the client has begun. If
it still waits when nothing more happens, its time runs out. -/
def await (script : Script σ) (l : Line η) (state : σ)
    (begun : Option Answer × LanguageServer.Client η) : Exchange η σ :=
  let x := converse script patience patience
    { line := { l with client := begun.2 }, state, answer := begun.1 }
  if x.answer.isSome then x
  else
    let (expired, client) := x.line.client.expire
    converse script patience patience
      { x with line := { x.line with client }, answer := expired }

end Line

/-! ### One reply -/

/-- What a server has to say to requests. -/
inductive Reply where
  | silence
  | hangUp
  /-- A payload as it stands. -/
  | raw (payload : List Char)
  /-- A response; without an id of its own it has that of the request. -/
  | response (id result error : Option Json)
  deriving DecidableEq, Repr

/-- A response with the fields that are given. -/
def responseFields (id : Json) (result error : Option Json) : Json :=
  .object
    ([("jsonrpc", .string "2.0"), ("id", id)]
      ++ (result.toList.map fun v => ("result", v)) ++ error.toList.map fun v => ("error", v))

/-- What a server with one reply does about a message: only requests get it. -/
def Reply.moves (r : Reply) (m : Json) : List Move :=
  match m.get? "id", m.get? "method" with
  | some id, some _ =>
    match r with
    | .silence => []
    | .hangUp => [.hangUp]
    | .raw payload => [.send payload]
    | .response own result error =>
      [.send (responseFields (own.getD id) result error).print]
  | _, _ => []

/-- The script of a server that has one reply. -/
def Reply.script (r : Reply) : Script Unit := fun _ m => (r.moves m, ())

end LanguageClient.Scripted
