import LanguageClient.Json.Parser
import LanguageClient.Json.Printer
import LanguageClient.Json.Record

/-!
# `LanguageClient.Rpc.Message`: JSON-RPC messages

There are three kinds. A payload that arrives is told apart by its fields alone:
with a `method` and an `id` that is not `null` it is a request, with a `method`
and no such `id` a notification, and without a `method` a response. A field of
a message that may be left out counts as left out when it is `null`.

- `Request`, `Notification`, `Response`: the messages; `toJson` lists their
  fields in a fixed order and leaves out what is not there.
- `Message.ofJson?`, `Message.parse`: the message that a payload is.
- `Response.success`, `Response.failure`, `Response.unknownMethod`: answers.
-/

set_option autoImplicit false

namespace LanguageClient.Rpc

/-- The protocol version that messages name. -/
def version : String := "2.0"

/-- A call that is to be answered. -/
structure Request where
  version : String := Rpc.version
  id : Json
  method : String
  params : Option Json
  deriving DecidableEq, Repr

/-- A call that is not answered. -/
structure Notification where
  version : String := Rpc.version
  method : String
  params : Option Json
  deriving DecidableEq, Repr

/-- Why a request failed. -/
structure ErrorObject where
  code : Int32
  text : String
  data : Option Json
  deriving DecidableEq, Repr

/-- The answer to the request with the same `id`. -/
structure Response where
  version : String := Rpc.version
  id : Json
  result : Option Json
  error : Option ErrorObject
  deriving DecidableEq, Repr

/-- A message of any kind. -/
inductive Message where
  | request (r : Request)
  | notification (n : Notification)
  | response (r : Response)
  deriving DecidableEq, Repr

/-! ### Writing -/

/-- A field that is left out if it has no value. -/
def optionalField (name : String) : Option Json → List (String × Json)
  | some v => [(name, v)]
  | none => []

/-- The value of a request. -/
def Request.toJson (r : Request) : Json :=
  .object ([("jsonrpc", .string r.version), ("id", r.id), ("method", .string r.method)]
    ++ optionalField "params" r.params)

/-- The value of a notification. -/
def Notification.toJson (n : Notification) : Json :=
  .object ([("jsonrpc", .string n.version), ("method", .string n.method)]
    ++ optionalField "params" n.params)

/-- The value of an error object. -/
def ErrorObject.toJson (e : ErrorObject) : Json :=
  .object ([("code", .int e.code.toInt), ("message", .string e.text)]
    ++ optionalField "data" e.data)

/-- The value of a response. -/
def Response.toJson (r : Response) : Json :=
  .object ([("jsonrpc", .string r.version), ("id", r.id)]
    ++ optionalField "result" r.result
    ++ optionalField "error" (r.error.map ErrorObject.toJson))

/-- The value of a message. -/
def Message.toJson : Message → Json
  | .request r => r.toJson
  | .notification n => n.toJson
  | .response r => r.toJson

/-- The payload of a message. -/
def Message.payload (m : Message) : List Char := m.toJson.print

/-! ### Reading -/

/-- A string. -/
def string? : Json → Option String
  | .string s => some s
  | _ => none

/-- A whole number of 32 bits with sign. -/
def int32? : Json → Option Int32
  | .number (.int i) =>
    if Int32.minValue.toInt ≤ i ∧ i ≤ Int32.maxValue.toInt then some (Int32.ofInt i) else none
  | _ => none

/-- The values of a record with these fields: an object that may have more of
them, or an array of exactly these. -/
def fields? (names : List String) : Json → Option (List (Option Json))
  | .object fields => some (names.map (Json.lookup fields))
  | .array items => if items.length = names.length then some (items.map some) else none
  | _ => none

/-- The error object that a value is. -/
def ErrorObject.ofJson? (v : Json) : Option ErrorObject :=
  match fields? ["code", "message", "data"] v with
  | some [some code, some text, data] => do
    return ⟨← int32? code, ← string? text, Json.presence data⟩
  | _ => none

/-- The request that a value is. -/
def Request.ofJson? (v : Json) : Option Request :=
  match fields? ["jsonrpc", "id", "method", "params"] v with
  | some [some version, some id, some method, params] => do
    return ⟨← string? version, id, ← string? method, Json.presence params⟩
  | _ => none

/-- The notification that a value is. -/
def Notification.ofJson? (v : Json) : Option Notification :=
  match fields? ["jsonrpc", "method", "params"] v with
  | some [some version, some method, params] => do
    return ⟨← string? version, ← string? method, Json.presence params⟩
  | _ => none

/-- The response that a value is. -/
def Response.ofJson? (v : Json) : Option Response :=
  match fields? ["jsonrpc", "id", "result", "error"] v with
  | some [some version, some id, result, error] => do
    let error ←
      match Json.presence error with
      | none => pure none
      | some e => (ErrorObject.ofJson? e).map some
    return ⟨← string? version, id, Json.presence result, error⟩
  | _ => none

/-- The message that a value is, told by its `method` and `id` fields. -/
def Message.ofJson? (v : Json) : Option Message :=
  match v.get? "method", Json.presence (v.get? "id") with
  | some _, some _ => (Request.ofJson? v).map .request
  | some _, none => (Notification.ofJson? v).map .notification
  | none, _ => (Response.ofJson? v).map .response

/-- The message that a payload holds. -/
def Message.parse (payload : List Char) : Except Json.Fault Message := do
  match Message.ofJson? (← Json.parse payload) with
  | some m => pure m
  | none => .error .mismatch

/-- The request that a payload holds, read as a record. -/
def Request.parse (payload : List Char) : Except Json.Fault Request := do
  let fields : List Json.Field :=
    [⟨"jsonrpc", .text⟩, ⟨"id", .any⟩, ⟨"method", .text⟩, ⟨"params", .optional⟩]
  match ← Json.readRecord fields payload with
  | [some (.string version), some id, some (.string method), params] =>
    pure ⟨version, id, method, params⟩
  | _ => .error .mismatch

/-- The notification that a payload holds, read as a record. -/
def Notification.parse (payload : List Char) : Except Json.Fault Notification := do
  let fields : List Json.Field :=
    [⟨"jsonrpc", .text⟩, ⟨"method", .text⟩, ⟨"params", .optional⟩]
  match ← Json.readRecord fields payload with
  | [some (.string version), some (.string method), params] => pure ⟨version, method, params⟩
  | _ => .error .mismatch

/-! ### Answers -/

/-- The answer that carries a result. -/
def Response.success (id result : Json) : Response :=
  { id, result := some result, error := none }

/-- The answer that carries an error. -/
def Response.failure (id : Json) (code : Int32) (text : String) (data : Option Json) :
    Response :=
  { id, result := none, error := some ⟨code, text, data⟩ }

/-- The code of an unknown method. -/
def unknownMethodCode : Int32 := -32601

/-- The answer to a request for a method that nobody handles. -/
def Response.unknownMethod (id : Json) (method : String) : Response :=
  .failure id unknownMethodCode ("Method not found: " ++ method) none

end LanguageClient.Rpc
