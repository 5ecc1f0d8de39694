import LanguageClient.Config.Builder
import LanguageClient.LanguageServer.Run
import LanguageClient.Session.Error
import LanguageClient.Session.ServerTraffic
import LanguageClient.Status.Indicator

/-!
# `LanguageClient.Session.Basic`: one activation's connection to the server

A session opens one connection, in the background, and tells the server about
the documents that belong to it: at once if the handshake is done, else right
after it. It is ready when the server says so. Stopping it is final: the status
item goes first, then a connection under construction is given up, or one that
is held is closed, and a spawned server is stopped.

- `Phase`, `Stage`: how far the session is, and how far its connection is.
- `Session.start`, `Session.openDocument`, `Session.closeDocument`,
  `Session.stop`, `Session.ready?`: what the owner asks for.
- `Session.dialed`, `Session.spawned`: how the attempt to connect comes out.
- `Session.resume`, `Session.expire`: the handshake or the stop goes on.
- `Session.ambient`: a step of the connection; what the server sends is heeded
  in the same step.
-/

set_option autoImplicit false

namespace LanguageClient

namespace Session

/-- How far a session is; it never goes back. -/
inductive Phase where
  | idle
  | connecting
  /-- The server has said that it is ready. -/
  | ready
  | stopped
  deriving DecidableEq, Repr

/-- Who is called about a notification of the server. -/
inductive Handler where
  /-- The server says that it is ready. -/
  | readiness
  /-- The server has something for the log. -/
  | relay
  deriving DecidableEq, Repr

/-- How far the connection of a session is. -/
inductive Stage where
  /-- There has been no attempt to connect. -/
  | unopened
  /-- The server is being dialed or spawned. -/
  | opening
  | handshaking
  /-- The attempt has failed or was given up. -/
  | abandoned
  /-- The handshake is done, and the session holds the connection. -/
  | held
  /-- The session is being stopped and closes the connection. -/
  | closing
  /-- The connection is closed, and the spawned server is being stopped. -/
  | stoppingChild
  /-- The connection has been let go. -/
  | released
  deriving DecidableEq, Repr

/-- A connection to a server, which may have been spawned for it. -/
structure Connection where
  client : LanguageServer.Client Handler
  process : Option ChildProcess.Manager := none

/-- The notification by which a server says that it is ready. -/
def readyMethod : String := "beef/initialized"

/-- The methods of the notifications that go to the log. -/
def relayedMethods : List String := ["window/logMessage", "window/showMessage"]

/-- A new client over a stream, with the handlers of a session. -/
def newClient (config : Config) (processId : Nat) (stream : Stream) :
    LanguageServer.Client Handler :=
  let rpc : Rpc.Client Handler := { stream }
  let rpc := rpc.onNotification readyMethod .readiness
  let rpc := relayedMethods.foldl (fun c m => c.onNotification m .relay) rpc
  { rpc := rpc.onRequest answer, identity := config.identity, processId }

/-- Let a connection go without closing it: a spawned server is killed. -/
def Connection.drop (c : Connection) : Connection :=
  { client := { c.client with rpc := c.client.rpc.drop, activity := .idle }
    process := c.process.map ChildProcess.Manager.drop }

end Session

open Session in
/-- One activation's connection to the server. -/
structure Session where
  config : Config
  /-- The process id that the client names to the server. -/
  processId : Nat := 0
  phase : Phase := .idle
  indicator : Status.Indicator := {}
  /-- The failure of the attempt to connect. -/
  lastError : Option SessionError := none
  /-- The documents that the session tracks, ordered by URI. -/
  documents : List Document := []
  stage : Stage := .unopened
  /-- The connection that was opened, also after it was let go. -/
  connection : Option Connection := none
  /-- How many connections have been opened. -/
  opened : Nat := 0
  /-- What the server wanted to see in the log. -/
  relayed : List Notice := []

namespace Session

/-- Whether the session accepts a document. -/
def routes (s : Session) (d : Document) : Bool := s.config.selector.accepts d

/-- The client of the connection that the session holds. -/
def heldClient? (s : Session) : Option (LanguageServer.Client Handler) :=
  if s.stage = .held then s.connection.map Connection.client else none

/-- Put a client in the place of the connection's. -/
def withClient (s : Session) (client : LanguageServer.Client Handler) : Session :=
  { s with connection := s.connection.map fun c => { c with client } }

/-- Whether the session is ready, or will never be. -/
def ready? (s : Session) : Option (Except SessionError Unit) :=
  match s.phase with
  | .ready => some (.ok ())
  | .stopped => some (.error .stopped)
  | _ => none

/-- Whether the owner waits for the stop to end, so that nothing else can be
asked for. -/
def isStopping (s : Session) : Bool := s.stage = .closing || s.stage = .stoppingChild

/-! ### What the server says -/

/-- The server is ready. That counts only while the session is connecting. -/
def markReady (s : Session) : Session :=
  if s.phase = .connecting then
    { s with phase := .ready, indicator := s.indicator.showRunning.2 }
  else s

/-- Heed a message for which a handler was called. -/
def heed (s : Session) : Rpc.Handled Handler → Session
  | .notification .readiness _ => s.markReady
  | .notification .relay n => { s with relayed := s.relayed ++ (relayed? n).toList }
  | .request _ => s

/-- A step of the connection. -/
def ambient (s : Session) (e : Rpc.Event Handler) : Session :=
  match s.connection with
  | none => s
  | some c =>
    let rpc := c.client.rpc.step e
    let news := rpc.handled.drop c.client.rpc.handled.length
    news.foldl heed (s.withClient { c.client with rpc })

/-! ### Connecting -/

/-- Begin to connect. -/
def start (s : Session) : Except SessionError Session :=
  match s.phase with
  | .idle =>
    .ok { s with phase := .connecting, indicator := s.indicator.showStarting, stage := .opening }
  | .stopped => .error .stopped
  | _ => .error .alreadyStarted

/-- The attempt to connect has failed: the connection is let go. -/
def fail (s : Session) (e : SessionError) : Session :=
  { s with
    stage := .abandoned
    connection := s.connection.map Connection.drop
    lastError := some e }

/-- Tell the server about a document; a failure is passed over. -/
def announce (client : LanguageServer.Client Handler) (d : Document) :
    LanguageServer.Client Handler :=
  (client.openDocument d).toOption.getD client

/-- The rest of connecting once the handshake has come to an end. -/
def afterHandshake (s : Session) (answer : LanguageServer.Answer) : Session :=
  match answer with
  | .failed e => s.fail (.languageServer e)
  | _ =>
    { s with
      stage := .held
      connection := s.connection.map fun c =>
        { c with client := s.documents.foldl announce c.client } }

/-- Go on with the handshake after it has been begun or resumed. -/
def continueHandshake (s : Session)
    (progress : Option LanguageServer.Answer × LanguageServer.Client Handler) : Session :=
  let s := s.withClient progress.2
  match progress.1 with
  | some answer => s.afterHandshake answer
  | none => s

/-- A stream is there: begin the handshake over it. -/
def connected (s : Session) (stream : Stream) (process : Option ChildProcess.Manager) :
    Session :=
  let client := newClient s.config s.processId stream
  let s :=
    { s with
      stage := .handshaking
      connection := some { client, process }
      opened := s.opened + 1 }
  s.continueHandshake (client.handshake s.config.rootUri)

/-- The system has dialed the address, or has refused to. -/
def dialed (s : Session) (refusal : Option SystemError) : Session :=
  match s.stage, s.config.transport, refusal with
  | .opening, .dial address, some cause => s.fail (.connect address cause)
  | .opening, .dial _, none => s.connected {} none
  | _, _, _ => s

/-- The system has spawned the server, or has refused to. -/
def spawned (s : Session) (verdict : Except SystemError Nat) : Session :=
  match s.stage, s.config.transport with
  | .opening, .spawn command arguments directory =>
    let m : ChildProcess.Manager := { command, arguments, directory }
    match (m.onErrorLine.start verdict).bind ChildProcess.Manager.claim with
    | .ok (stream, m) => s.connected stream (some m)
    | .error e => s.fail (.process e)
  | _, _ => s

/-! ### Documents -/

/-- Put a document in its place in the order of URIs. -/
def insert (d : Document) : List Document → List Document
  | [] => [d]
  | e :: rest => if d.uri < e.uri then d :: e :: rest else e :: insert d rest

/-- Whether a document of a URI is tracked. -/
def tracks (s : Session) (uri : String) : Bool := s.documents.any fun d => d.uri == uri

/-- Track a document, if the session accepts it, and tell the server about it.
The answer says whether the document belongs to the session. -/
def openDocument (s : Session) (d : Document) : Except SessionError (Bool × Session) :=
  if ¬s.routes d then .ok (false, s)
  else if s.phase = .stopped then .error .stopped
  else if ¬Uri.isReference d.uri.toList then .error (.languageServer (.invalidUri d.uri))
  else if s.tracks d.uri then .ok (true, s)
  else
    match s.heldClient? with
    | none => .ok (true, { s with documents := insert d s.documents })
    | some client =>
      match client.openDocument d with
      | .ok client => .ok (true, { s.withClient client with documents := insert d s.documents })
      | .error e => .error (.languageServer e)

/-- Stop tracking a document and tell the server, if it knows about it. The
answer says whether the document was tracked; it is not tracked any more even if
telling the server fails. -/
def closeDocument (s : Session) (uri : String) : Except SessionError Bool × Session :=
  if ¬s.tracks uri then (.ok false, s)
  else
    let s := { s with documents := s.documents.filter fun d => d.uri != uri }
    match s.heldClient? with
    | none => (.ok true, s)
    | some client =>
      match client.closeDocument uri with
      | .ok client => (.ok true, s.withClient client)
      | .error e => (.error (.languageServer e), s)

/-! ### Stopping -/

/-- Finish stopping once the exit of the spawned server is noticed. -/
def continueStop (s : Session) : Session :=
  match s.connection with
  | some { client, process := some m } =>
    let (finished, m) := m.proceed
    { s with
      connection := some { client, process := some m }
      stage := if finished then .released else s.stage }
  | _ => { s with stage := .released }

/-- The rest of stopping once the connection is closed. A server that did not
acknowledge is killed; one that has exited is left alone. -/
def afterClose (s : Session) (answer : LanguageServer.Answer) : Session :=
  let mode : ChildProcess.StopMode := if answer = .done then .graceful else .force
  match s.connection with
  | some { client, process := some m } =>
    match m.beginStop mode with
    | .ok m =>
      let connection := some { client, process := some m }
      { s with stage := .stoppingChild, connection }.continueStop
    | .error _ => { s with stage := .released }
  | _ => { s with stage := .released }

/-- Go on with closing after it has been begun or resumed. -/
def continueClose (s : Session)
    (progress : Option LanguageServer.Answer × LanguageServer.Client Handler) : Session :=
  let s := s.withClient progress.2
  match progress.1 with
  | some answer => s.afterClose answer
  | none => s

/-- Close the connection, if there is one, and give up one under construction. -/
def release (s : Session) : Session :=
  match s.stage, s.connection with
  | .opening, _ => { s with stage := .abandoned }
  | .handshaking, _ =>
    { s with stage := .abandoned, connection := s.connection.map Connection.drop }
  | .held, some c => { s with stage := .closing }.continueClose c.client.close
  | _, _ => s

/-- Stop the session, once and for all. -/
def stop (s : Session) : Session :=
  if s.phase = .stopped then s
  else { s with phase := .stopped, indicator := s.indicator.tearDown, documents := [] }.release

/-- Whether stopping has come to its end. -/
def hasStopped (s : Session) : Bool := s.phase = .stopped && !s.isStopping

/-- The session is dropped without being stopped. -/
def drop (s : Session) : Session :=
  { s with
    indicator := s.indicator.tearDown
    connection := s.connection.map Connection.drop
    stage := if s.stage = .unopened ∨ s.stage = .released then s.stage else .abandoned }

/-! ### Going on -/

/-- Go on with the handshake or with stopping, as far as possible. -/
def resume (s : Session) : Session :=
  match s.stage, s.connection with
  | .handshaking, some c => s.continueHandshake c.client.resume
  | .closing, some c => s.continueClose c.client.resume
  | .stoppingChild, _ => s.continueStop
  | _, _ => s

/-- The time of what is under way is over: a request fails, and a server that
lingers is killed. -/
def expire (s : Session) : Session :=
  match s.stage, s.connection with
  | .handshaking, some c => s.continueHandshake c.client.expire
  | .closing, some c => s.continueClose c.client.expire
  | .stoppingChild, some c =>
    { s with
      connection := some { c with process := c.process.map ChildProcess.Manager.overdue } }
  | _, _ => s

/-- A step of the spawned server. -/
def child (s : Session) (e : ChildProcess.Event) : Session :=
  { s with
    connection := s.connection.map fun c => { c with process := c.process.map fun m => m.step e } }

end Session

end LanguageClient
