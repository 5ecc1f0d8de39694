import LanguageClient.Program
import LanguageClient.Status.Run
import Std.Async.DNS
import Std.Async.Signal
import Std.Async.TCP
import Std.Async.Timer

/-!
# `LanguageClient.Main`: the command-line program

The outer layer of the program: it looks at its surroundings, writes the log,
dials the server, carries bytes between the socket and the session, and waits for
an interrupt. What to do is decided elsewhere. It cannot spawn a server itself,
and reports that as a refusal of the system.

- `Running.push`, `Running.wait`: the session goes on, and the world does.
- `runSession`: from the activation to its end.
- `main`: the program.
-/

set_option autoImplicit false

namespace LanguageClient.Program

open Std.Async
open Std.Net (IPAddr SocketAddress)

/-! ### The system -/

/-- Why the system has refused something. -/
def reasonOf (e : IO.Error) : SystemError :=
  let number (n : UInt32) : Nat :=
    if n.toNat < Nat.pow 2 31 then n.toNat else Nat.pow 2 32 - n.toNat
  match e with
  | .noFileOrDirectory _ n text | .permissionDenied _ n text | .inappropriateType _ n text =>
    .ofNumber (number n) text
  | .invalidArgument _ n text | .resourceExhausted _ n text | .noSuchThing _ n text =>
    .ofNumber (number n) text
  | .otherError n text | .resourceVanished n text | .unsatisfiedConstraints n text =>
    .ofNumber (number n) text
  | e => .other 0 (toString e)

/-- What an action brings, or why the system refuses it. -/
def attempt {α : Type} (action : IO α) : IO (Except SystemError α) := do
  try return .ok (← action) catch e => return .error (reasonOf e)

/-- The process id of the program. -/
def currentId : IO Nat := do
  let stat ← attempt (IO.FS.readFile "/proc/self/stat")
  return ((stat.toOption.getD "").takeWhile Char.isDigit).toNat?.getD 0

/-- What the program finds when it starts. -/
def lookAround (arguments : List String) : IO Surroundings := do
  let working ← attempt (return Path.ofString (← IO.currentDir).toString)
  return {
    arguments := arguments.map fun a => Text.encode a.toList
    transport := ⟨← IO.getEnv "BEEF_LSP_PATH", ← IO.getEnv "BEEF_LSP_TCP"⟩
    log := ⟨← IO.getEnv "RUST_LOG", ← IO.getEnv "BEEF_LSP_LOG_FILE",
      ← IO.getEnv "BEEF_LSP_LOG_UNIQUE", ← IO.getEnv "BEEF_LSP_LOG_JSON"⟩
    working
    processId := ← currentId }

/-- The bytes of a file. -/
def readBytes (p : Path) : IO (Except SystemError (List UInt8)) :=
  attempt (return (← IO.FS.readBinFile p.display).toList)

/-- The document of a file. -/
def readDocument (working path : Path) : IO (Except SystemError Document) := do
  match Path.absolute? working path with
  | none => return .error .emptyPath
  | some absolute => return (← readBytes absolute).bind (Document.ofFile absolute)

/-! ### The log -/

/-- Where the log goes. -/
structure Log where
  filter : Logging.Filter
  json : Bool
  write : String → IO Unit

/-- A line of the log. -/
def Log.line (l : Log) (target : String) (n : Notice) : String :=
  if l.json then
    String.ofList (Json.object
      [("level", .string n.level.label), ("fields", .object [("message", .string n.text)]),
        ("target", .string target)]).print
  else n.level.label ++ " " ++ target ++ ": " ++ n.text

/-- Log a notice; `extra` are fields that it has besides its text. -/
def Log.say (l : Log) (target : String) (n : Notice) (extra : List String := []) : IO Unit :=
  if l.filter.accepts target n extra then l.write (l.line target n) else return

/-- Open the log. -/
def Log.start (s : Logging.Settings) (filter : Logging.Filter) :
    IO (Except SystemError Log) := do
  match s.file with
  | none => return .ok { filter, json := s.json, write := IO.eprintln }
  | some file =>
    let handle ← attempt (IO.FS.Handle.mk file.display .append)
    return handle.map fun h =>
      { filter, json := s.json, write := fun t => do h.putStrLn t; h.flush }

/-! ### A session at work -/

/-- What the program holds while a session is at work. -/
structure Running where
  log : Log
  extension : Extension
  host : Host
  socket : Option TCP.Socket.Client := none
  /-- How many texts have been sent. -/
  sent : Nat := 0
  /-- Why the server takes nothing more. -/
  refusal : Option String := none
  /-- When the time of what is under way is over, in milliseconds. -/
  deadline : Option Nat := none
  interrupted : Bool := false

namespace Running

/-- How many steps the session may make by itself at once. -/
def patience : Nat := Nat.pow 10 6

/-- The session. -/
def session (r : Running) : Session := r.extension.session

/-- Put a session in the place of the one at work, and log what is new. -/
def become (r : Running) (s : Session) : IO Running := do
  let before := r.session
  for n in s.relayed.drop before.relayed.length do
    r.log.say "beef_lsp::server" n
  let item := before.indicator.item Extension.item.id
  let fresh := s.indicator.calls.drop before.indicator.calls.length
  for x in (item.applyAll fresh).rendered.drop item.rendered.length do
    r.log.say (target ++ "::host::terminal") ⟨.info, "[status] " ++ x.text⟩
      ["item", "name", "tooltip"]
  if s.phase = .ready ∧ before.phase ≠ .ready then
    r.log.say target readiness
  return { r with extension := { r.extension with session := s } }

/-- Whether something is under way that may run out of time. -/
def isPressed (s : Session) : Bool := s.stage == .handshaking || s.stage == .closing

/-- Let the session go on, and send what it has written. -/
def push (r : Running) : Async Running := do
  let mut r ← r.become (r.session.settle r.refusal patience)
  if isPressed r.session then
    if r.deadline.isNone then
      let timeout := r.session.config.timeout.nanoseconds / Nat.pow 10 6
      r := { r with deadline := some ((← IO.monoMsNow) + timeout) }
  else r := { r with deadline := none }
  if let some c := r.session.connection then
    let stream := c.client.rpc.stream
    if let some socket := r.socket then
      try
        for text in stream.written.drop r.sent do
          socket.send (ByteArray.mk (Text.encode text).toArray)
        if stream.writer = .finished then
          socket.shutdown
      catch e => r := { r with refusal := some (toString e) }
    r := { r with sent := stream.written.length }
  return r

/-- What the world does next. -/
inductive Wake where
  | bytes (portion : Option ByteArray)
  | broken (cause : String)
  | interrupt
  | timeout

/-- Wait for the world. -/
def wait (r : Running) (interrupts : Signal.Waiter) : Async Wake := do
  let now ← IO.monoMsNow
  let pause := (r.deadline.map (· - now)).getD 60000
  let mut cases : Array (Selectable Wake) :=
    #[.case (← Selector.sleep (.ofNat pause)) fun _ => return .timeout]
  if ¬r.interrupted then
    cases := cases.push (.case interrupts.selector fun _ => return .interrupt)
  if let some socket := r.socket then
    if r.session.connection.any fun c => c.client.rpc.stream.reading then
      cases := cases.push (.case (socket.recvSelector 4096) fun b => return .bytes b)
  try Selectable.one cases catch e => return .broken (toString e)

/-- Take notice of what the world has done. -/
def heed (r : Running) (w : Wake) : Async Running := do
  match w with
  | .bytes (some b) => r.become (r.session.ambient (.deliver b.toList))
  | .bytes none => r.become (r.session.ambient .finish)
  | .broken cause => r.become (r.session.ambient (.breakOff cause))
  | .interrupt => return { r with interrupted := true }
  | .timeout =>
    if r.deadline.any (· ≤ (← IO.monoMsNow)) then
      let r ← r.become r.session.expire
      return { r with deadline := none }
    else return r

/-- Go on until a condition holds. -/
partial def loopUntil (stop : Running → Bool) (interrupts : Signal.Waiter) (r : Running) :
    Async Running := do
  let r ← r.push
  if stop r then return r
  let r ← r.heed (← r.wait interrupts)
  loopUntil stop interrupts r

/-- What an action brings, or why the system refuses it. -/
def trying {α : Type} (action : Async α) : Async (Except SystemError α) := do
  try return .ok (← action) catch e => return .error (reasonOf e)

/-- Connect to a place. -/
def reach (place : SocketAddress) : Async TCP.Socket.Client := do
  let socket ← TCP.Socket.Client.mk
  socket.connect place
  return socket

/-- Dial an address: every address of the host in turn. -/
def dial (address : Address) : Async (Except SystemError TCP.Socket.Client) := do
  match ← trying (DNS.getAddrInfo address.host "") with
  | .error cause => return .error cause
  | .ok hosts =>
    let mut result : Except SystemError TCP.Socket.Client := .error .notFound
    for host in hosts do
      let place : SocketAddress :=
        match host with
        | .v4 a => .v4 ⟨a, address.port⟩
        | .v6 a => .v6 ⟨a, address.port⟩
      if result.toOption.isNone then
        result ← trying (reach place)
    return result

/-- Connect to the server of the session. -/
def connect (r : Running) : Async Running := do
  match r.session.config.transport with
  | .spawn .. => r.become (r.session.spawned (.error .unsupported))
  | .dial address =>
    match ← dial address with
    | .ok socket =>
      let r ← r.become (r.session.dialed none)
      return { r with socket := some socket }
    | .error cause => r.become (r.session.dialed (some cause))

end Running

/-! ### The program -/

/-- Open the files that were named; the URIs of those that were opened. -/
def openFiles (r : Running) (working : Path) (files : List Path) : IO (List String × Running) := do
  let mut r := r
  let mut opened := []
  for path in files do
    let (uri, notice, extension) := openFile r.host r.extension path (← readDocument working path)
    r.log.say target notice
    r := { r with extension }
    opened := opened ++ uri.toList
  return (opened, r)

/-- Close the documents that were opened. -/
def closeFiles (r : Running) (opened : List String) : IO Running := do
  let mut r := r
  for uri in opened do
    let (notice, extension) := closeFile r.extension uri
    if let some n := notice then
      r.log.say target n
    r := { r with extension }
  return r

/-- Whether the session has stopped and everything is written. -/
def isOver (r : Running) : Bool :=
  r.session.hasStopped
    && (r.session.connection.all fun c => !c.client.rpc.stream.canWrite)

/-- From the activation to its end. -/
def runSession (s : Surroundings) (log : Log) (setup : Setup) : Async UInt32 := do
  let interrupts ← Signal.Waiter.mk .sigint true
  let (activation, host) := Extension.activate {} setup.config s.processId
  match activation with
  | .failed e _ =>
    IO.eprintln ("Error: " ++ e.message)
    return 1
  | .active x =>
    let idle : Session := { config := setup.config, processId := s.processId }
    let r ← ({ log, extension := { x with session := idle }, host } : Running).become x.session
    let (opened, r) ← openFiles r (s.working.toOption.getD ⟨[]⟩) setup.files
    log.say target waiting
    let r ← r.connect
    if let some e := r.session.lastError then
      log.say (target ++ "::session::manager")
        ⟨.error, "Failed to start Beef language session: " ++ e.message⟩
    let r ← r.loopUntil Running.interrupted interrupts
    let r ← closeFiles r opened
    let r ← r.become r.session.stop
    let r ← r.loopUntil isOver interrupts
    let (_, _) := r.extension.finish r.host
    return 0

/-- The text that is shown when help is asked for. -/
def usage : String :=
  "Language client shim that connects an editor host to the Beef language server\n\n"
    ++ "Usage: " ++ Identity.client.name ++ " [OPTIONS]"

/-- Say why the program ends, and give its code. -/
def finish (e : Ending) : IO UInt32 := do
  match e with
  | .usage .version => IO.println versionLine
  | .usage .help => IO.println usage
  | .usage _ => IO.eprintln ("error: invalid arguments\n\n" ++ usage)
  | e => IO.eprintln (e.complaint?.getD "")
  return UInt32.ofNat e.code

end LanguageClient.Program

open LanguageClient Program in
/-- The program. -/
def main (arguments : List String) : IO UInt32 := do
  let s ← lookAround arguments
  match options s with
  | .error e => finish e
  | .ok (_, settings) =>
    let some filter := Logging.Filter.ofText? settings.level | finish .level
    let log ← Log.start settings filter
    let p := prepare s (log.map fun _ => ())
    if let .ok log := log then
      for n in p.notices do
        log.say target n
    match p.result, log with
    | .error e, _ => finish e
    | .ok setup, .ok log => (runSession s log setup).block
    | .ok _, .error e => finish (.logging e)
