import LanguageClient.Framing
import LanguageClient.Rpc.Call
import LanguageClient.Stream

/-!
# `LanguageClient.Rpc.Client`: one end of a JSON-RPC connection

A client numbers its requests and keeps a table of those that wait. Messages to
be sent queue up; a dispatcher moves them to the stream, takes what arrives, and
hands it on: a response to the caller in the table, a notification to the
handler of its method, a request to the one who answers requests.

Everything here is one step that nothing interrupts. The dispatcher ends when it
is asked to, or when the connection fails; then all who wait are cancelled and
nothing more can be sent.

- `Client.request`, `Client.notify`: queue a message.
- `Client.resume`, `Client.expire`, `Client.abandon`: how a caller goes on.
- `Client.sendNext`, `Client.receiveNext`, `Client.stop`: the dispatcher's steps.
- `Client.beginClose`, `Client.endClose`: the two halves of closing.
-/

set_option autoImplicit false

namespace LanguageClient.Rpc

/-- A handler that was called, and with what. -/
inductive Handled (η : Type) where
  | notification (handler : η) (n : Notification)
  | request (r : Request)
  deriving DecidableEq, Repr

/-- What the dispatcher is doing. -/
inductive Dispatcher where
  | running
  | ended
  deriving DecidableEq, Repr

/-- One end of a connection, with handlers of a type `η`. -/
structure Client (η : Type) where
  stream : Stream := {}
  framing : Framing := {}
  dispatcher : Dispatcher := .running
  /-- Whether the dispatcher has been asked to stop. -/
  stopping : Bool := false
  /-- The calls made so far, in order. -/
  calls : List Call := []
  /-- The numbers of the calls to which a response would go. -/
  pending : List Nat := []
  /-- The handlers of notifications, by method. -/
  handlers : List (String × η) := []
  /-- Who answers requests of the other end. -/
  replier : Option (Request → Response) := none
  /-- The messages that wait to be sent. -/
  outbound : List Message := []
  /-- The messages ever queued, in order. -/
  accepted : List Message := []
  /-- The payloads taken from the stream, in order. -/
  received : List (List Char) := []
  /-- The handlers called so far, in order. -/
  handled : List (Handled η) := []
  notices : List Notice := []

namespace Client

variable {η : Type}

/-- Whether messages are still being moved. -/
def isConnected (c : Client η) : Bool := c.dispatcher == .running && !c.stopping

/-- The id of a call on the wire: its number, as 64 bits hold it. -/
def wireId (number : Nat) : Nat := number % Nat.pow 2 64

/-- Change the call of a number. -/
def update (c : Client η) (number : Nat) (f : Call → Call) : Client η :=
  { c with calls := c.calls.map fun call => if call.number = number then f call else call }

/-- Take numbers out of the table and give their mailboxes up. -/
def giveUp (c : Client η) (numbers : List Nat) : Client η :=
  { c with
    calls := c.calls.map fun call => if call.number ∈ numbers then call.giveUp else call
    pending := c.pending.filter (· ∉ numbers) }

/-- Queue a message for the dispatcher. -/
def queue (c : Client η) (m : Message) : Client η :=
  { c with outbound := c.outbound ++ [m], accepted := c.accepted ++ [m] }

/-! ### Callers -/

/-- The other calls in the table that have the id of a number. There are none
before the counter has gone round. -/
def sharing (c : Client η) (number : Nat) : List Nat :=
  c.pending.filter fun n => n ≠ number ∧ wireId n = wireId number

/-- Make a call: number it, enter it into the table, and queue the request. It
fails at once if nothing can be sent. A call in the table that has the same id
is displaced in either case.

The params arrive as JSON already. The only things that anyone passes are plain
records, JSON values or nothing, and these can all be written as JSON; so the
error of params that cannot be, which would leave the call in the table, has no
counterpart here. -/
def request (c : Client η) (method : String) (params : Option Json) (shape : Shape) :
    Nat × Client η :=
  let number := c.calls.length + 1
  let c := c.giveUp (c.sharing number)
  if c.dispatcher = .ended then
    let call : Call := { number, shape, progress := .ended (.error .disconnected) }
    (number, { c with calls := c.calls ++ [call] })
  else
    let c :=
      { c with
        calls := c.calls ++ [({ number, shape } : Call)]
        pending := c.pending ++ [number] }
    (number, c.queue (.request { id := .nat (wireId number), method, params }))

/-- Queue a notification. It fails if nothing can be sent. The params arrive as
JSON already, as those of `request` do, so this is the only way to fail. -/
def notify (c : Client η) (method : String) (params : Option Json) :
    Except CallError (Client η) :=
  if c.dispatcher = .ended then .error .disconnected
  else .ok (c.queue (.notification { method, params }))

/-- The call of a number. -/
def call? (c : Client η) (number : Nat) : Option Call :=
  c.calls.find? fun call => call.number = number

/-- How a call has ended, if it has. -/
def outcome? (c : Client η) (number : Nat) : Option Outcome := (c.call? number).bind Call.outcome?

/-- Take a number out of the table if its caller has given up waiting. The
table goes by ids, so whoever has the same id goes too. -/
def settleTable (c : Client η) (number : Nat) : Client η :=
  match c.outcome? number with
  | some (.error .timeout) | some (.error .cancelled) =>
    { c with pending := c.pending.erase number }.giveUp (c.sharing number)
  | _ => c

/-- A caller who still waits does something about the mailbox. Whoever has an
end, or has gone away, does nothing more. -/
def look (c : Client η) (number : Nat) (f : Call → Call) : Client η :=
  if (c.call? number).any Call.isWaiting then (c.update number f).settleTable number else c

/-- A caller looks into the mailbox. -/
def resume (c : Client η) (number : Nat) : Client η := c.look number Call.resume

/-- A caller's time is over. -/
def expire (c : Client η) (number : Nat) : Client η := c.look number Call.expire

/-- A caller goes away. The table is not told. -/
def abandon (c : Client η) (number : Nat) : Client η := c.update number Call.abandon

/-- Cancel all calls in the table. -/
def cancelAll (c : Client η) : Client η := c.giveUp c.pending

/-! ### Handlers -/

/-- Set the handler of a method. -/
def onNotification (c : Client η) (method : String) (handler : η) : Client η :=
  { c with handlers := (method, handler) :: c.handlers.filter fun h => h.1 != method }

/-- Set who answers requests of the other end. -/
def onRequest (c : Client η) (replier : Request → Response) : Client η :=
  { c with replier := some replier }

/-! ### What arrives -/

/-- The number of 64 bits that an id is. -/
def word64? : Json → Option Nat
  | .number (.int i) => if 0 ≤ i ∧ i < Int.pow 2 64 then some i.toNat else none
  | _ => none

/-- Hand a response to the call with its id, if the table has one. -/
def acceptResponse (c : Client η) (r : Response) : Client η :=
  match (word64? r.id).bind fun id => c.pending.find? fun n => wireId n = id with
  | some number =>
    { c.update number (Call.fill r) with pending := c.pending.erase number }
  | none => c

/-- Hand a notification to the handler of its method. -/
def acceptNotification (c : Client η) (n : Notification) : Client η :=
  match c.handlers.lookup n.method with
  | some handler => { c with handled := c.handled ++ [.notification handler n] }
  | none => c

/-- Answer a request of the other end. Without anyone to answer, no method is
known. -/
def acceptRequest (c : Client η) (r : Request) : Client η :=
  match c.replier with
  | some reply =>
    let c := { c with handled := c.handled ++ [Handled.request r] }
    c.queue (.response (reply r))
  | none => c.queue (.response (.unknownMethod r.id r.method))

/-- Hand on a payload. One that is no message changes nothing. -/
def accept (c : Client η) (payload : List Char) : Client η :=
  let c := { c with received := c.received ++ [payload] }
  match Message.parse payload with
  | .ok (.response r) => c.acceptResponse r
  | .ok (.notification n) => c.acceptNotification n
  | .ok (.request r) => c.acceptRequest r
  | .error _ => c

/-! ### The dispatcher -/

/-- Say something. -/
def say (c : Client η) (notices : List Notice) : Client η :=
  { c with notices := c.notices ++ notices }

/-- The dispatcher ends: all who wait are cancelled, and what was queued is
lost. -/
def endDispatch (c : Client η) : Client η :=
  { c.giveUp c.pending with dispatcher := .ended, outbound := [] }

/-- The notice that the connection is lost. -/
def lost (cause : String) : Notice :=
  ⟨.warning, "Connection to language server lost: " ++ cause⟩

/-- The notice that a message could not be sent. -/
def sendFailed (e : StreamError) : Notice :=
  ⟨.error, "Failed to send message: Transport error: " ++ e.message⟩

/-- Move the next message to the stream. -/
def sendNext (c : Client η) : Client η :=
  match c.dispatcher, c.outbound with
  | .running, m :: rest =>
    match c.stream.send (Framing.frame m.payload) with
    | .ok stream => { c with stream, outbound := rest }
    | .error e => (c.say [sendFailed e]).endDispatch
  | _, _ => c

/-- Move messages to the stream until it takes no more. -/
def flush (stream : Stream) : List Message → Stream
  | [] => stream
  | m :: rest =>
    match stream.send (Framing.frame m.payload) with
    | .ok stream => flush stream rest
    | .error _ => stream

/-- Stop, if that has been asked for: move what is queued, and end. -/
def stop (c : Client η) : Client η :=
  if c.dispatcher = .running ∧ c.stopping then
    { c with stream := flush c.stream c.outbound }.endDispatch
  else c

/-- Take the next payload from the stream and hand it on. A fault, or the end of
the stream, ends the dispatcher. -/
def receiveNext (c : Client η) : Client η :=
  if c.dispatcher = .ended then c
  else
    let chunks := if c.stream.connected then c.stream.incoming else []
    match c.framing.receive chunks with
    | (reception, framing, rest) =>
      let c := { c with framing, stream := { c.stream with incoming := rest } }
      match reception with
      | .message payload => c.accept payload
      | .failed e => (c.say [lost e.message]).endDispatch
      | .exhausted =>
        match c.stream.take with
        | (.ended, stream) =>
          ({ c with stream }.say
            [lost ("Transport error: " ++ StreamError.disconnected.message)]).endDispatch
        | (_, stream) => { c with stream }

/-- The dispatcher is cut off in the middle of its work: what was queued is lost,
but nobody is cancelled. -/
def cutOff (c : Client η) : Client η := { c with dispatcher := .ended, outbound := [] }

/-! ### Closing -/

/-- The first half of closing: cancel all calls and ask the dispatcher to
stop. -/
def beginClose (c : Client η) : Client η := { c.cancelAll with stopping := true }

/-- The second half of closing, once the dispatcher has ended. -/
def endClose (c : Client η) : Client η := { c with stream := c.stream.close }

/-- The notice that the dispatcher took too long to stop. -/
def stopOverdue : Notice :=
  ⟨.warning, "JSON-RPC dispatch task did not stop in time, aborting"⟩

/-- The second half of closing, when the dispatcher takes too long. -/
def forceClose (c : Client η) : Client η :=
  if c.dispatcher = .running then (c.say [stopOverdue]).cutOff.endClose else c.endClose

/-- The client is dropped without being closed. -/
def drop (c : Client η) : Client η := c.cutOff.endClose

end Client

end LanguageClient.Rpc
