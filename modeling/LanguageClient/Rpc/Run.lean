import LanguageClient.Rpc.Client

/-!
# `LanguageClient.Rpc.Run`: runs of a client

Callers, the dispatcher, the writer, the reader and whoever closes the client
take their steps in any order. An event is one such step, and a run is a list of
events. Left to itself, a client takes the steps that can be taken: what is to
be sent goes first, then a request to stop, then what has arrived.

- `Event`, `Client.step`, `Client.run`: the steps and their effect.
- `Client.arrive`: bytes that arrive are read in portions.
- `Client.next?`, `Client.settle`: go on until nothing more can be done.
-/

set_option autoImplicit false

namespace LanguageClient.Rpc

/-- A step of a client or of the world around it. -/
inductive Event (η : Type) where
  | request (method : String) (params : Option Json) (shape : Shape)
  | notify (method : String) (params : Option Json)
  | resume (number : Nat)
  | expire (number : Nat)
  | abandon (number : Nat)
  | cancelAll
  | onNotification (method : String) (handler : η)
  | onRequest (replier : Request → Response)
  | sendNext
  | receiveNext
  | stop
  | beginClose
  | endClose
  | forceClose
  | drop
  /-- The writer's step; the other end may refuse. -/
  | write (refusal : Option String)
  | deliver (portion : List UInt8)
  | finish
  | breakOff (cause : String)

namespace Client

variable {η : Type}

/-- Put a stream in its place and say what it has to say. -/
def withStream (c : Client η) (after : Stream × List Notice) : Client η :=
  { c with stream := after.1 }.say after.2

/-- What an event does. The second half of closing comes after the first, and
without force only once the dispatcher has ended. -/
def step (c : Client η) : Event η → Client η
  | .request method params shape => (c.request method params shape).2
  | .notify method params =>
    match c.notify method params with
    | .ok c => c
    | .error _ => c
  | .resume number => c.resume number
  | .expire number => c.expire number
  | .abandon number => c.abandon number
  | .cancelAll => c.cancelAll
  | .onNotification method handler => c.onNotification method handler
  | .onRequest replier => c.onRequest replier
  | .sendNext => c.sendNext
  | .receiveNext => c.receiveNext
  | .stop => c.stop
  | .beginClose => c.beginClose
  | .endClose => if c.stopping ∧ c.dispatcher = .ended then c.endClose else c
  | .forceClose => if c.stopping then c.forceClose else c
  | .drop => c.drop
  | .write refusal => c.withStream (c.stream.write refusal)
  | .deliver portion => c.withStream (c.stream.deliver portion)
  | .finish => c.withStream c.stream.finish
  | .breakOff cause => c.withStream (c.stream.breakOff cause)

/-- What events do, one after another. -/
def run (c : Client η) (events : List (Event η)) : Client η := events.foldl step c

/-- Bytes arrive, portion by portion. -/
def arrive (c : Client η) (bytes : List UInt8) : Client η :=
  (Stream.portions bytes).foldl (fun c portion => c.step (.deliver portion)) c

/-! ### Going on by itself -/

/-- Whether the dispatcher has something to take from the stream: a message, a
chunk, or its end. -/
def hasArrivals (c : Client η) : Bool :=
  !c.framing.queue.isEmpty || !c.stream.incoming.isEmpty || !c.stream.connected
    || !c.stream.reading

/-- The dispatcher's next step: what is to be sent goes first. -/
def nextDispatch? (c : Client η) : Option (Event η) :=
  if c.dispatcher = .ended then none
  else if !c.outbound.isEmpty then some .sendNext
  else if c.stopping then some .stop
  else if c.hasArrivals then some .receiveNext
  else none

/-- A caller who can go on. -/
def nextCaller? (c : Client η) : Option (Event η) :=
  (c.calls.find? fun call => call.isWaiting ∧ call.mailbox ≠ .empty).map fun call =>
    .resume call.number

/-- The next step that can be taken, if the other end refuses as given. -/
def next? (c : Client η) (refusal : Option String) : Option (Event η) :=
  c.nextDispatch?.or <| c.nextCaller?.or <|
    if c.stream.canWrite then some (.write refusal) else none

/-- Go on until nothing more can be done, at most `fuel` steps. -/
def settle (refusal : Option String) : Nat → Client η → Client η
  | 0, c => c
  | fuel + 1, c =>
    match c.next? refusal with
    | some e => settle refusal fuel (c.step e)
    | none => c

end Client

end LanguageClient.Rpc
