import LanguageClient.Notice
import LanguageClient.Rpc.Message
import LanguageClient.Text.Blank

/-!
# `LanguageClient.Session.ServerTraffic`: what a session answers and relays

The server sends requests of its own. Those that only announce something are
acknowledged with `null`; any other method is unknown. The messages that the
server wants to show or log go to the log, with a level that follows their type.

- `answer`: the answer to a request of the server.
- `relayed?`: the notice for the parameters of a server message.
-/

set_option autoImplicit false

namespace LanguageClient.Session

open Rpc

/-- The methods of the requests that are acknowledged. -/
def acknowledgedMethods : List String :=
  ["window/workDoneProgress/create", "client/registerCapability",
    "client/unregisterCapability"]

/-- The answer to a request of the server. -/
def answer (r : Request) : Response :=
  if r.method ∈ acknowledgedMethods then .success r.id .null
  else .unknownMethod r.id r.method

/-- The level of a server message of a type. -/
def levelOfType (type : Int32) : Level :=
  if type = 1 then .error
  else if type = 2 then .warning
  else if type = 3 then .info
  else .debug

/-- The notice for a server message, without blanks at its end. Parameters that
are no such message are passed over. -/
def relayed? (n : Notification) : Option Notice := do
  let params ← n.params
  match fields? ["type", "message"] params with
  | some [some type, some text] =>
    return ⟨levelOfType (← int32? type),
      String.ofList (Text.trimEnd (← string? text).toList)⟩
  | _ => none

end LanguageClient.Session
