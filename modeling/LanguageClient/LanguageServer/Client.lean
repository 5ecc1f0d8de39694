import LanguageClient.Config.Builder
import LanguageClient.LanguageServer.Capabilities
import LanguageClient.Rpc.Run

/-!
# `LanguageClient.LanguageServer.Client`: the client of a language server

The life of a connection: `initialize` and `initialized`, then documents that
are opened and closed, then `shutdown` and `exit`. An operation that waits for
an answer leaves behind what it waits for, and goes on from there when the
answer has come or the time is over.

- `Client.handshake`, `Client.shutdown`, `Client.close`: begin an operation.
- `Client.resume`, `Client.expire`: go on with it.
- `Client.openDocument`, `Client.closeDocument`: tell the server of documents.
-/

set_option autoImplicit false

namespace LanguageClient.LanguageServer

/-- Why an operation fails. -/
inductive Failure where
  | call (e : Rpc.CallError)
  | notInitialized
  /-- An operation at a time at which the protocol does not allow it. -/
  | protocol (text : String)
  | invalidUri (uri : String)
  | requestTimeout (method : String)
  deriving DecidableEq, Repr

/-- The text of a failure. -/
def Failure.message : Failure → String
  | .call e => "JSON-RPC error: " ++ e.message
  | .notInitialized => "LSP client not initialized"
  | .protocol text => "LSP protocol error: " ++ text
  | .invalidUri uri => "Invalid document URI: " ++ uri
  | .requestTimeout method =>
    "LSP request timeout: " ++ method
      ++ " - consider using a longer timeout or checking server responsiveness"

/-- The failure of a request: a timeout names the method. -/
def Failure.ofCall (method : String) : Rpc.CallError → Failure
  | .timeout => .requestTimeout method
  | e => .call e

/-- How an operation ends. -/
inductive Answer where
  /-- The server is initialized; this is what was understood of its result. -/
  | initialized (result : Json)
  | done
  | failed (e : Failure)
  deriving DecidableEq, Repr

/-- The answer of an operation without a result. -/
def Answer.ofResult : Except Failure Unit → Answer
  | .ok _ => .done
  | .error e => .failed e

/-- What an operation under way waits for. -/
inductive Activity where
  | idle
  | initializing (call : Nat)
  /-- The answer to `shutdown`; closing may come after it. -/
  | shuttingDown (call : Nat) (closes : Bool)
  /-- The end of the dispatcher, after a shutdown that ended like this. -/
  | closing (result : Except Failure Unit)

/-- The client of a language server. -/
structure Client (η : Type) where
  rpc : Rpc.Client η := {}
  identity : Identity := .client
  processId : Nat := 0
  initialized : Bool := false
  activity : Activity := .idle

namespace Client

variable {η : Type}

/-- Whether messages of the server are still handed on. -/
def isConnected (c : Client η) : Bool := c.rpc.isConnected

/-! ### Messages -/

/-- The parameters of `initialize`. -/
def initializeParams (c : Client η) (rootUri : Option String) : Json :=
  .object
    [("capabilities", clientCapabilities),
      ("clientInfo",
        .object [("name", .string c.identity.name), ("version", .string c.identity.version)]),
      ("processId", .nat c.processId),
      ("rootUri", (rootUri.map Json.string).getD .null)]

/-- The parameters of `textDocument/didOpen`. -/
def didOpenParams (d : Document) : Json :=
  .object
    [("textDocument",
      .object
        [("languageId", .string d.language), ("text", .string d.text), ("uri", .string d.uri),
          ("version", .int d.version.toInt)])]

/-- The parameters of `textDocument/didClose`. -/
def didCloseParams (uri : String) : Json :=
  .object [("textDocument", .object [("uri", .string uri)])]

/-- Send a notification. -/
def notify (c : Client η) (method : String) (params : Option Json) :
    Except Failure (Client η) :=
  match c.rpc.notify method params with
  | .ok rpc => .ok { c with rpc }
  | .error e => .error (.call e)

/-! ### Operations that wait -/

/-- The rest of `initialize` once its answer is there. -/
def afterInitialize (c : Client η) (o : Rpc.Outcome) : Answer × Client η :=
  let c := { c with activity := .idle }
  match o with
  | .error e => (.failed (.ofCall "initialize" e), c)
  | .ok result =>
    match c.notify "initialized" (some (.object [])) with
    | .ok c => (.initialized result, { c with initialized := true })
    | .error e => (.failed e, c)

/-- The rest of `shutdown` once its answer is there. -/
def afterShutdown (c : Client η) (o : Rpc.Outcome) : Except Failure Unit × Client η :=
  match o with
  | .error e => (.error (.ofCall "shutdown" e), c)
  | .ok _ =>
    match c.notify "exit" none with
    | .ok c => (.ok (), c)
    | .error e => (.error e, c)

/-- Begin to close the connection after a shutdown. -/
def beginClose (c : Client η) (result : Except Failure Unit) : Client η :=
  { c with rpc := c.rpc.beginClose, activity := .closing result }

/-- Finish closing, once the dispatcher has ended. -/
def finishClose (c : Client η) (result : Except Failure Unit) : Option Answer × Client η :=
  if c.rpc.dispatcher = .ended then
    (some (.ofResult result), { c with rpc := c.rpc.endClose, activity := .idle })
  else (none, c)

/-- Go on as far as possible without waiting. -/
def proceed (c : Client η) : Option Answer × Client η :=
  match c.activity with
  | .idle => (none, c)
  | .initializing call =>
    match c.rpc.outcome? call with
    | none => (none, c)
    | some o =>
      let (answer, c) := c.afterInitialize o
      (some answer, c)
  | .shuttingDown call closes =>
    match c.rpc.outcome? call with
    | none => (none, c)
    | some o =>
      let (result, c) := c.afterShutdown o
      if closes then (c.beginClose result).finishClose result
      else (some (.ofResult result), { c with activity := .idle })
  | .closing result => c.finishClose result

/-- The call that an operation waits for. -/
def awaited? (c : Client η) : Option Nat :=
  match c.activity with
  | .initializing call => some call
  | .shuttingDown call _ => some call
  | _ => none

/-- Go on with an operation whose answer may have come. -/
def resume (c : Client η) : Option Answer × Client η :=
  match c.awaited? with
  | some call => { c with rpc := c.rpc.resume call }.proceed
  | none => c.proceed

/-- Go on with an operation whose time is over: its request has run out of time,
or the dispatcher takes too long to stop. -/
def expire (c : Client η) : Option Answer × Client η :=
  match c.activity with
  | .idle => (none, c)
  | .initializing call | .shuttingDown call _ => { c with rpc := c.rpc.expire call }.proceed
  | .closing result =>
    (some (.ofResult result), { c with rpc := c.rpc.forceClose, activity := .idle })

/-- Ask the server to get ready for a workspace, by `initialize`. -/
def handshake (c : Client η) (rootUri : Option String) : Option Answer × Client η :=
  if c.initialized then (some (.failed (.protocol "Client already initialized")), c)
  else
    match rootUri.filter fun uri => !Uri.isReference uri.toList with
    | some uri => (some (.failed (.invalidUri uri)), c)
    | none =>
      let (call, rpc) :=
        c.rpc.request "initialize" (some (c.initializeParams rootUri)) initializeResult
      { c with rpc, activity := .initializing call }.proceed

/-- Send `shutdown`, from then on the server counts as not initialized. -/
def beginShutdown (c : Client η) (closes : Bool) : Option Answer × Client η :=
  let (call, rpc) := c.rpc.request "shutdown" none .unit
  { c with rpc, initialized := false, activity := .shuttingDown call closes }.proceed

/-- Shut the server down, if it is initialized. -/
def shutdown (c : Client η) : Option Answer × Client η :=
  if c.initialized then c.beginShutdown false else (some .done, c)

/-- Shut the server down, if it is initialized, and close the connection
whatever comes of it. -/
def close (c : Client η) : Option Answer × Client η :=
  if c.initialized then c.beginShutdown true
  else (c.beginClose (.ok ())).finishClose (.ok ())

/-! ### Documents -/

/-- Tell the server about a document by its URI. -/
def tell (c : Client η) (uri method : String) (params : Json) : Except Failure (Client η) :=
  if ¬c.initialized then .error .notInitialized
  else if Uri.isReference uri.toList then c.notify method (some params)
  else .error (.invalidUri uri)

/-- Tell the server that a document was opened. -/
def openDocument (c : Client η) (d : Document) : Except Failure (Client η) :=
  c.tell d.uri "textDocument/didOpen" (didOpenParams d)

/-- Tell the server that a document was closed. -/
def closeDocument (c : Client η) (uri : String) : Except Failure (Client η) :=
  c.tell uri "textDocument/didClose" (didCloseParams uri)

/-! ### Going on by itself -/

/-- A step that the dispatcher or the writer can take. -/
def next? (c : Client η) (refusal : Option String) : Option (Rpc.Event η) :=
  c.rpc.nextDispatch?.or (if c.rpc.stream.canWrite then some (.write refusal) else none)

/-- Let dispatcher, writer and the operation under way go on until nothing more
can be done, at most `fuel` steps, or until the operation ends. -/
def settle (refusal : Option String) : Nat → Client η → Option Answer × Client η
  | 0, c => (none, c)
  | fuel + 1, c =>
    match c.resume with
    | (some answer, c) => (some answer, c)
    | (none, c) =>
      match c.next? refusal with
      | some e => settle refusal fuel { c with rpc := c.rpc.step e }
      | none => (none, c)

end Client

end LanguageClient.LanguageServer
