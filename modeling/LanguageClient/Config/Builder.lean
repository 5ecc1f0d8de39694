import LanguageClient.Config.Transport
import LanguageClient.Document
import LanguageClient.Notice
import LanguageClient.Uri.File

/-!
# `LanguageClient.Config.Builder`: the configuration of a session

A configuration is built from settings given in any order. Arguments add up; of
any other setting the last one counts. Building then checks that exactly one
transport is named and that nothing is empty or zero.

- `Config`: what a session needs to know.
- `Setting`, `Builder.apply`: the settings and what they do.
- `Builder.build`: the configuration, or the first thing wrong with it.
- `Config.forProgram`: the configuration of the command-line program.
-/

set_option autoImplicit false

namespace LanguageClient

/-- Who the client says it is. -/
structure Identity where
  name : String
  version : String
  deriving DecidableEq, Repr

/-- This client. -/
def Identity.client : Identity := ⟨"beef-lsp-client", "0.1.0"⟩

/-- A span of time. -/
structure Duration where
  nanoseconds : Nat
  deriving DecidableEq, Repr

namespace Duration

/-- The nanoseconds of a second. -/
def perSecond : Nat := Nat.pow 10 9

/-- A span of whole seconds. -/
def ofSeconds (n : Nat) : Duration := ⟨n * perSecond⟩

/-- The whole seconds of a span. -/
def seconds (d : Duration) : Nat := d.nanoseconds / perSecond

/-- What a span has beyond its whole seconds. -/
def remainder (d : Duration) : Nat := d.nanoseconds % perSecond

end Duration

/-- What a session needs to know. -/
structure Config where
  transport : Transport
  selector : Selector
  identity : Identity
  timeout : Duration
  rootUri : Option String
  deriving DecidableEq, Repr

namespace Config

/-- How long requests wait for their answer unless told otherwise. -/
def defaultTimeout : Duration := .ofSeconds 10

/-- The configuration that dials the default address. -/
def default : Config :=
  { transport := .default
    selector := .beef
    identity := .client
    timeout := defaultTimeout
    rootUri := none }

/-- One setting. -/
inductive Setting where
  | spawn (command : String)
  | argument (value : String)
  | directory (path : Path)
  | dial (address : Address)
  /-- A whole transport: its parts, one by one. -/
  | transport (t : Transport)
  | selector (s : Selector)
  | timeout (d : Duration)
  | rootUri (uri : String)
  deriving DecidableEq, Repr

/-- The settings so far. -/
structure Builder where
  command : Option String := none
  arguments : List String := []
  directory : Option Path := none
  address : Option Address := none
  selector : Option Selector := none
  timeout : Option Duration := none
  rootUri : Option String := none
  deriving DecidableEq, Repr

namespace Builder

/-- Add a setting. A transport without a working directory leaves the one that
was set. -/
def apply (b : Builder) : Setting → Builder
  | .spawn command => { b with command := some command }
  | .argument value => { b with arguments := b.arguments ++ [value] }
  | .directory path => { b with directory := some path }
  | .dial address => { b with address := some address }
  | .transport (.spawn command arguments directory) =>
    { b with
      command := some command
      arguments := b.arguments ++ arguments
      directory := directory.or b.directory }
  | .transport (.dial address) => { b with address := some address }
  | .selector s => { b with selector := some s }
  | .timeout d => { b with timeout := some d }
  | .rootUri uri => { b with rootUri := some uri }

/-- The settings of a list, in order. -/
def ofSettings (settings : List Setting) : Builder := settings.foldl apply {}

/-- The one transport that is named. -/
def transport (b : Builder) : Except ConfigError Transport :=
  match b.command, b.address with
  | some _, some _ => .error .conflictingTransport
  | none, none => .error .missingTransport
  | some command, none => .ok (.spawn command b.arguments b.directory)
  | none, some address => .ok (.dial address)

/-- The configuration, or the first thing wrong with it. -/
def build (b : Builder) : Except ConfigError Config := do
  let transport ← b.transport
  transport.validate
  let selector := b.selector.getD .beef
  if selector.isEmpty then throw .emptySelector
  let timeout := b.timeout.getD defaultTimeout
  if timeout.nanoseconds = 0 then throw .invalidTimeout
  return { transport, selector, identity := .client, timeout, rootUri := b.rootUri }

end Builder

/-! ### The program's configuration -/

/-- The URI of a path, or why it has none. -/
def fileUri (p : Path) : Except NoFileUri String :=
  match Uri.ofPath? p with
  | some uri => .ok uri
  | none => .error ⟨p⟩

/-- The notice that arguments for a server are of no use, because none is
spawned. -/
def ignoredArguments : Notice :=
  ⟨.warning, "Ignoring --arg values: they only apply when spawning the server"⟩

/-- The settings of the program: the transport, the root as URI, the timeout,
and for a spawned server the root as working directory and its arguments. -/
def programSettings (transport : Transport) (arguments : List String) (root : Path)
    (rootUri : String) (timeout : Option Nat) : List Setting :=
  [.transport transport, .rootUri rootUri]
    ++ (timeout.map fun n => .timeout (.ofSeconds n)).toList
    ++ match transport with
      | .spawn .. => .directory root :: arguments.map .argument
      | .dial _ => []

/-- What is said while the program's configuration is built. -/
def programNotices (transport : Transport) (arguments : List String) : List Notice :=
  match transport with
  | .spawn .. => []
  | .dial _ => if arguments.isEmpty then [] else [ignoredArguments]

/-- The configuration of the program for a workspace, and what is said about it.
A root without a URI is refused before anything else. -/
def forProgram (transport : Transport) (arguments : List String) (root : Path)
    (timeout : Option Nat) : Except ConfigError Config × List Notice :=
  match fileUri root with
  | .error cause => (.error (.invalidRoot cause), [])
  | .ok uri =>
    ((Builder.ofSettings (programSettings transport arguments root uri timeout)).build,
      programNotices transport arguments)

end Config

end LanguageClient
