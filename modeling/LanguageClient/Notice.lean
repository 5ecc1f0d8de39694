/-!
# `LanguageClient.Notice`: what is said in the log

A notice is a line of the log with its level. Components keep the notices that
they give in their state, in order; a program decides where they go.

- `Level`, `Level.label`: the levels and their names.
- `Notice`: a level and a text.
-/

set_option autoImplicit false

namespace LanguageClient

/-- How serious a notice is. -/
inductive Level where
  | error
  | warning
  | info
  | debug
  deriving DecidableEq, Repr

/-- The name of a level in a log. -/
def Level.label : Level → String
  | .error => "ERROR"
  | .warning => "WARN"
  | .info => "INFO"
  | .debug => "DEBUG"

/-- A line of the log. -/
structure Notice where
  level : Level
  text : String
  deriving DecidableEq, Repr

end LanguageClient
