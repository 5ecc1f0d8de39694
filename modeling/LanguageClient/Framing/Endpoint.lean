import LanguageClient.Framing

/-!
# `LanguageClient.Framing.Endpoint`: framed messages over a source of chunks

An endpoint reads from a given sequence of chunks and records what it writes.
Messages that were queued can still be received after it has been closed.

- `Endpoint.receive`, `Endpoint.send`, `Endpoint.close`: the operations.
- `EndpointError`: a fault of the framing, or of the source behind it.
-/

set_option autoImplicit false

namespace LanguageClient.Framing

/-- Why an operation of an endpoint fails. -/
inductive EndpointError where
  | framing (e : FramingError)
  /-- The endpoint has been closed. -/
  | disconnected
  /-- There are no more chunks. -/
  | exhausted
  deriving DecidableEq, Repr

/-- The text of a failure. -/
def EndpointError.message : EndpointError → String
  | .framing e => e.message
  | .disconnected => "Transport error: Transport is disconnected"
  | .exhausted => "Transport error: No more responses available"

/-- One end of a framed connection. -/
structure Endpoint where
  framing : Framing := {}
  /-- The chunks that have not been read. -/
  incoming : List (List Char) := []
  /-- What has been written, frame by frame. -/
  written : List (List Char) := []
  connected : Bool := true
  deriving DecidableEq, Repr

namespace Endpoint

/-- Receive a message. -/
def receive (e : Endpoint) : Except EndpointError (List Char) × Endpoint :=
  match e.framing.receive (if e.connected then e.incoming else []) with
  | (reception, framing, rest) =>
    let after := { e with framing, incoming := if e.connected then rest else e.incoming }
    match reception with
    | .message body => (.ok body, after)
    | .failed fault => (.error (.framing fault), after)
    | .exhausted => (.error (if e.connected then .exhausted else .disconnected), after)

/-- Write a message. -/
def send (e : Endpoint) (message : List Char) : Except EndpointError Unit × Endpoint :=
  if e.connected then (.ok (), { e with written := e.written ++ [frame message] })
  else (.error .disconnected, e)

/-- Close the endpoint. -/
def close (e : Endpoint) : Endpoint := { e with connected := false }

end Endpoint

end LanguageClient.Framing
