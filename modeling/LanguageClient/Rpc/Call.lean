import LanguageClient.Json.Shape
import LanguageClient.Rpc.Message

/-!
# `LanguageClient.Rpc.Call`: requests that wait for their answer

A caller waits at a mailbox. Somebody else puts the response into it, or gives
the mailbox up, which cancels the call. A caller whose time is over, or who goes
away, looks at the mailbox no more.

- `Call`: a request on its way, with its mailbox and what has become of it.
- `CallError`: why a call fails.
- `Response.outcome`: what a response means for a caller.
-/

set_option autoImplicit false

namespace LanguageClient.Rpc

/-- Why a call fails. -/
inductive CallError where
  /-- The server answered with an error. -/
  | server (e : ErrorObject)
  /-- Nothing can be sent any more. -/
  | disconnected
  /-- The result has another form than asked for. -/
  | mismatch
  | timeout
  /-- Nobody will answer. -/
  | cancelled
  /-- There is no result, and its absence is no result of the form asked for. -/
  | missingResult
  deriving DecidableEq, Repr

/-- The text of a failure. -/
def CallError.message : CallError → String
  | .server e => "JSON-RPC server error (" ++ toString e.code.toInt ++ "): " ++ e.text
  | .disconnected => "Transport error: Outbound channel closed"
  | .mismatch => "Deserialization error: the result has another form"
  | .timeout => "Request timeout"
  | .cancelled => "Request was cancelled"
  | .missingResult => "Missing result in response"

/-- How a call ends. -/
abbrev Outcome := Except CallError Json

/-- What a response means for a caller who asked for a result of a shape. An
error counts before a result, and a missing result is read as `null`. -/
def Response.outcome (shape : Shape) (r : Response) : Outcome :=
  match r.error, r.result with
  | some e, _ => .error (.server e)
  | none, some v => (shape.read v).elim (.error .mismatch) .ok
  | none, none => (shape.read .null).elim (.error .missingResult) .ok

/-- Where a caller waits for the response. -/
inductive Mailbox where
  | empty
  | filled (r : Response)
  /-- Nothing will come. -/
  | givenUp
  deriving DecidableEq, Repr

/-- What has become of a call. -/
inductive Progress where
  | waiting
  | ended (o : Outcome)
  /-- The caller has gone away. -/
  | abandoned

/-- A request on its way. -/
structure Call where
  /-- Calls are counted from one. -/
  number : Nat
  /-- The form of the result that the caller asks for. -/
  shape : Shape
  mailbox : Mailbox := .empty
  progress : Progress := .waiting

namespace Call

/-- Whether the caller still waits. -/
def isWaiting (c : Call) : Bool :=
  match c.progress with
  | .waiting => true
  | _ => false

/-- How the call has ended, if it has. -/
def outcome? (c : Call) : Option Outcome :=
  match c.progress with
  | .ended o => some o
  | _ => none

/-- Put a response into the mailbox of a caller who still waits. -/
def fill (r : Response) (c : Call) : Call :=
  if c.isWaiting ∧ c.mailbox = .empty then { c with mailbox := .filled r } else c

/-- Give the mailbox up. -/
def giveUp (c : Call) : Call :=
  if c.mailbox = .empty then { c with mailbox := .givenUp } else c

/-- The caller looks into the mailbox. -/
def resume (c : Call) : Call :=
  if c.isWaiting then
    match c.mailbox with
    | .empty => c
    | .filled r => { c with progress := .ended (r.outcome c.shape) }
    | .givenUp => { c with progress := .ended (.error .cancelled) }
  else c

/-- The caller's time is over. What is in the mailbox by then still counts. -/
def expire (c : Call) : Call :=
  if c.isWaiting ∧ c.mailbox = .empty then { c with progress := .ended (.error .timeout) }
  else c.resume

/-- The caller goes away. -/
def abandon (c : Call) : Call := if c.isWaiting then { c with progress := .abandoned } else c

end Call

end LanguageClient.Rpc
