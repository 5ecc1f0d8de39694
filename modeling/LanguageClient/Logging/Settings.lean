import LanguageClient.Path
import LanguageClient.Text.Numeral

/-!
# `LanguageClient.Logging.Settings`: where the log goes

The environment gives a level, a file and a format; the command line overrides
the first two. The file's name can be made unique by the process id, which goes
in front of its extension.

- `Settings`: level, file and format.
- `Settings.ofVariables`, `Settings.override`: the two sources.
- `uniqueFile`: a file name with a process id in it.
-/

set_option autoImplicit false

namespace LanguageClient.Logging

/-- Where the log goes, and how. -/
structure Settings where
  level : String := "info"
  /-- The file that is appended to; without one the log goes to the console. -/
  file : Option Path := none
  /-- Whether a line of the log is a JSON object. -/
  json : Bool := false
  deriving DecidableEq, Repr

/-- The environment variables that concern the log. -/
structure Variables where
  /-- `RUST_LOG`: the level. -/
  level : Option String
  /-- `BEEF_LSP_LOG_FILE`: the file. -/
  file : Option String
  /-- `BEEF_LSP_LOG_UNIQUE`: whether the process id goes into the file's name. -/
  unique : Option String
  /-- `BEEF_LSP_LOG_JSON`: the format. -/
  json : Option String
  deriving DecidableEq, Repr

/-- The path with the process id in its name, in front of the extension. An
extension that is empty or no text is dropped; a path without a name stays. -/
def uniqueFile (p : Path) (processId : Nat) : Path :=
  match p.stem? with
  | none => p
  | some stem =>
    let extension := (p.extension?.bind Text.decode?).getD []
    let name := Text.decodeLossy stem ++ '.' :: Text.decimal processId
    p.withName (Text.encode (if extension.isEmpty then name else name ++ '.' :: extension))

/-- The settings of single values. -/
def Settings.ofValues (level file : Option String) (unique json : Bool) (processId : Nat) :
    Settings :=
  { level := level.getD "info"
    file := file.map fun f =>
      if unique then uniqueFile (.ofString f) processId else .ofString f
    json }

/-- The settings of the environment; a switch is on if it is exactly `true`. -/
def Settings.ofVariables (v : Variables) (processId : Nat) : Settings :=
  .ofValues v.level v.file (v.unique == some "true") (v.json == some "true") processId

/-- The settings with the values of the command line. -/
def Settings.override (s : Settings) (level : Option String) (file : Option Path) : Settings :=
  { s with level := level.getD s.level, file := file.or s.file }

end LanguageClient.Logging
