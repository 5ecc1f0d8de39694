import LanguageClient.Config.Address

/-!
# `LanguageClient.Config.Transport`: how a server is reached

A server is spawned as a child process or dialed at an address. The command line
decides first; without it two environment variables do, and without those the
default address is dialed.

- `Transport`: the two ways.
- `Transport.validate`: a command may not be blank, nor a host, nor a port zero.
- `Transport.ofVariables`: what the two variables say together.
- `Transport.resolve`: the choice between command line and environment.
-/

set_option autoImplicit false

namespace LanguageClient

/-- How a server is reached. -/
inductive Transport where
  /-- Run a program and talk over its standard streams. -/
  | spawn (command : String) (arguments : List String) (directory : Option Path)
  /-- Connect to an address. -/
  | dial (address : Address)
  deriving DecidableEq, Repr

namespace Transport

/-- The program that is spawned unless another one is named. -/
def defaultCommand : String := "BeefLsp"

/-- The default address. -/
def default : Transport := .dial .default

/-- A short form for the log. -/
def describe : Transport → String
  | .spawn command arguments _ => " ".intercalate ("spawn" :: command :: arguments)
  | .dial address => "tcp " ++ address.display

/-- Refuse a blank command, a blank host and the port zero. -/
def validate (t : Transport) : Except ConfigError Unit :=
  match t with
  | .spawn command _ _ =>
    if Text.allBlank command.toList then .error (.invalidCommand command) else .ok ()
  | .dial address =>
    if Text.allBlank address.host.toList ∨ address.port = 0 then
      .error (.invalidAddress address.display "host must be non-empty and port non-zero")
    else .ok ()

/-- A variable that is set and not blank. -/
def given (value : Option String) : Option String :=
  value.filter fun s => !Text.allBlank s.toList

/-- What the variables for a command and for an address say together. -/
def ofVariables (command address : Option String) : Except ConfigError (Option Transport) :=
  match given command, given address with
  | some _, some _ => .error .conflictingTransport
  | some command, none => .ok (some (.spawn command [] none))
  | none, some address => do return some (.dial (← Address.parse address))
  | none, none => .ok none

/-- The two environment variables that name a transport. -/
structure Variables where
  /-- `BEEF_LSP_PATH`: a command. -/
  command : Option String
  /-- `BEEF_LSP_TCP`: an address. -/
  address : Option String
  deriving DecidableEq, Repr

/-- The transport that the command line names, else the one of the environment,
else the default one. -/
def resolve (command address : Option String) (env : Variables) :
    Except ConfigError Transport :=
  match command, address with
  | some _, some _ => .error .conflictingTransport
  | some command, none => .ok (.spawn command [] none)
  | none, some address => do return .dial (← Address.parse address)
  | none, none => do return (← ofVariables env.command env.address).getD default

end Transport

end LanguageClient
