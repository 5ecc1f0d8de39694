import LanguageClient.ChildProcess.Manager
import LanguageClient.Config.Address
import LanguageClient.LanguageServer.Client

/-!
# `LanguageClient.Session.Error`: why a session fails

- `SessionError`: the causes.
- `SessionError.message`: their texts.
-/

set_option autoImplicit false

namespace LanguageClient

/-- Why a session, or an operation on it, fails. -/
inductive SessionError where
  | languageServer (cause : LanguageServer.Failure)
  | process (cause : ChildProcess.Failure)
  | connect (address : Address) (cause : SystemError)
  | alreadyStarted
  | stopped
  deriving DecidableEq, Repr

/-- The text of a failure. -/
def SessionError.message : SessionError → String
  | .languageServer cause => "LSP error: " ++ cause.message
  | .process cause => "Process error: " ++ cause.message
  | .connect address cause => "Failed to connect to " ++ address.display ++ ": " ++ cause.message
  | .alreadyStarted => "Session already started"
  | .stopped => "Session stopped"

end LanguageClient
