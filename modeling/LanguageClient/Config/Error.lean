import LanguageClient.Path

/-!
# `LanguageClient.Config.Error`: why a configuration is refused

- `ConfigError`: the causes.
- `ConfigError.message`: their texts.
-/

set_option autoImplicit false

namespace LanguageClient

/-- A path that has no file URI. -/
structure NoFileUri where
  path : Path
  deriving DecidableEq, Repr

/-- The text for a path that has no file URI. -/
def NoFileUri.message (e : NoFileUri) : String :=
  "Path cannot be expressed as a file URI: " ++ e.path.display

/-- Why a configuration is refused. -/
inductive ConfigError where
  /-- Both a command and an address are given. -/
  | conflictingTransport
  /-- Neither a command nor an address is given. -/
  | missingTransport
  | invalidCommand (command : String)
  | invalidAddress (address reason : String)
  /-- The timeout is zero. -/
  | invalidTimeout
  /-- The selector has no filter. -/
  | emptySelector
  | invalidRoot (cause : NoFileUri)
  deriving DecidableEq, Repr

/-- The text of a refusal. -/
def ConfigError.message : ConfigError → String
  | .conflictingTransport =>
    "Exactly one transport must be configured, got both spawn and dial"
  | .missingTransport => "No transport configured: set a server command or a TCP address"
  | .invalidCommand command => "Invalid server command: '" ++ command ++ "'"
  | .invalidAddress address reason => "Invalid TCP address '" ++ address ++ "': " ++ reason
  | .invalidTimeout => "Request timeout must be greater than zero"
  | .emptySelector => "Document selector must contain at least one filter"
  | .invalidRoot cause => "Invalid workspace root: " ++ cause.message

end LanguageClient
