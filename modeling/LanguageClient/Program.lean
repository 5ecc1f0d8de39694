import LanguageClient.CommandLine
import LanguageClient.Config.Builder
import LanguageClient.Extension
import LanguageClient.FileTree
import LanguageClient.Logging.Filter
import LanguageClient.Logging.Settings

/-!
# `LanguageClient.Program`: what the command-line program decides

The program reads its command line, opens its log, finds the root of the
workspace and builds the configuration; the first of these that fails ends it.
Then it activates, opens the documents that were named, and waits to be
interrupted; it closes what it opened and deactivates.

- `Surroundings`, `Preparation`: what the program finds, and what it makes of it.
- `prepare`: everything before the activation.
- `openFile`, `closeFile`: what it does about a document.
-/

set_option autoImplicit false

namespace LanguageClient.Program

/-- What the program finds when it starts. -/
structure Surroundings where
  arguments : List CommandLine.Argument
  transport : Transport.Variables
  log : Logging.Variables
  /-- The working directory, if there still is one. -/
  working : Except SystemError Path
  processId : Nat

/-- What the program says, and where it is said from. -/
def target : String := "beef_lsp_client"

/-- The line that tells the version. -/
def versionLine : String := Identity.client.name ++ " " ++ Identity.client.version

/-- Why the program ends before it activates. -/
inductive Ending where
  | usage (r : CommandLine.Refusal)
  /-- The level of the log is cut inside a character. -/
  | level
  | logging (cause : SystemError)
  | root (cause : SystemError)
  | configuration (cause : ConfigError)
  deriving DecidableEq, Repr

namespace Ending

/-- The code with which the program ends. -/
def code : Ending → Nat
  | .usage .help | .usage .version => 0
  | .usage _ => 2
  | .level => 101
  | _ => 1

/-- What the program complains about. -/
def complaint? : Ending → Option String
  | .usage _ | .level => none
  | .logging cause => some ("Failed to initialize logging: " ++ cause.message)
  | .root cause => some ("Failed to resolve workspace root: " ++ cause.message)
  | .configuration cause => some ("Invalid configuration: " ++ cause.message)

end Ending

/-- What the program goes on with. -/
structure Setup where
  root : Path
  config : Config
  files : List Path
  deriving DecidableEq, Repr

/-- The options of the command line, and where the log goes. -/
def options (s : Surroundings) : Except Ending (CommandLine.Options × Logging.Settings) :=
  match CommandLine.Options.parse s.arguments with
  | .error r => .error (.usage r)
  | .ok o =>
    .ok (o, (Logging.Settings.ofVariables s.log s.processId).override o.logLevel o.logFile)

/-- The root of the workspace: the working directory, unless another one is
named. An absolute one needs no working directory. -/
def root (named : Option Path) (working : Except SystemError Path) : Except SystemError Path :=
  match named with
  | none => working
  | some p =>
    if p.isAbsolute then (Path.absolute? p p).elim (.error .emptyPath) .ok
    else if p.bytes = [] then .error .emptyPath
    else do
      let working ← working
      (Path.absolute? working p).elim (.error .emptyPath) .ok

/-- The configuration for a root, and what is said about it. -/
def configure (o : CommandLine.Options) (env : Transport.Variables) (root : Path) :
    Except ConfigError Config × List Notice :=
  match Transport.resolve o.command o.tcp env with
  | .ok transport => Config.forProgram transport o.arguments root o.timeout
  | .error e => (.error e, [])

/-- What the program says before it activates. -/
def greeting (root : Path) (config : Config) : Notice :=
  ⟨.info, "Starting Beef language client for " ++ root.display ++ " via "
    ++ config.transport.describe⟩

/-- What came of the preparation, and the notices given meanwhile. -/
structure Preparation where
  result : Except Ending Setup
  notices : List Notice := []

/-- Everything before the activation, once the level of the log has been read;
`logOpened` is what came of opening the log file, if there is one. -/
def prepare (s : Surroundings) (logOpened : Except SystemError Unit) : Preparation :=
  match options s, logOpened with
  | .error e, _ => { result := .error e }
  | .ok _, .error cause => { result := .error (.logging cause) }
  | .ok (o, _), .ok _ =>
    match root o.root s.working with
    | .error cause => { result := .error (.root cause) }
    | .ok root =>
      match configure o s.transport root with
      | (.error cause, notices) => { result := .error (.configuration cause), notices }
      | (.ok config, notices) =>
        { result := .ok { root, config, files := o.files }
          notices := notices ++ [greeting root config] }

/-! ### Documents -/

/-- What is said while the program waits. -/
def waiting : Notice := ⟨.info, "Press Ctrl-C to stop"⟩

/-- What is said when the server is ready. -/
def readiness : Notice := ⟨.info, "Beef language server is ready"⟩

/-- Open a file that was named: an editor of the host may claim it; else it is
read, and the session decides. The URI is that of a document that was opened. -/
def openFile (h : Host) (x : Extension) (path : Path)
    (read : Except SystemError Document) : Option String × Notice × Extension :=
  match h.registry.resolve path, read with
  | some viewType, _ =>
    (none, ⟨.info, path.display ++ " is handled by custom editor " ++ viewType⟩, x)
  | none, .error cause =>
    (none, ⟨.error, "Failed to read " ++ path.display ++ ": " ++ cause.message⟩, x)
  | none, .ok d =>
    match x.session.openDocument d with
    | .ok (true, session) =>
      (some d.uri, ⟨.info, "Opened " ++ path.display⟩, { x with session })
    | .ok (false, session) =>
      (none, ⟨.warning, "Not a Beef source file, skipped: " ++ path.display⟩, { x with session })
    | .error cause =>
      (none, ⟨.error, "Failed to open " ++ path.display ++ ": " ++ cause.message⟩, x)

/-- Close a document that the program opened. -/
def closeFile (x : Extension) (uri : String) : Option Notice × Extension :=
  match x.session.closeDocument uri with
  | (.ok _, session) => (none, { x with session })
  | (.error cause, session) =>
    (some ⟨.warning, "Failed to close " ++ uri ++ ": " ++ cause.message⟩, { x with session })

end LanguageClient.Program
