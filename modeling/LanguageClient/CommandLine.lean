import LanguageClient.Config.Transport

/-!
# `LanguageClient.CommandLine`: reading the command line

An option is written out in full, with its value in the next argument or after
an equals sign. A value is taken in only when its option is complete, so an
argument that is no option at all is reported before a value that does not fit.
After `--` nothing is an option, and there is nothing else to give.

- `Options`: what the command line says.
- `Refusal`: why it is not accepted, or that it asks for help or the version.
- `Flag`, `Flag.accept`: the options, and how each takes its value.
- `Progress.step`, `Options.parse`: one argument more, and all of them.
-/

set_option autoImplicit false

namespace LanguageClient.CommandLine

/-- An argument, as the system hands it over. -/
abbrev Argument := List UInt8

/-- What the command line says. -/
structure Options where
  /-- Spawn this server. -/
  command : Option String := none
  /-- Arguments for the spawned server. -/
  arguments : List String := []
  /-- Dial this address. -/
  tcp : Option String := none
  /-- The root of the workspace. -/
  root : Option Path := none
  /-- How many seconds a request may take. -/
  timeout : Option Nat := none
  /-- Documents to open. -/
  files : List Path := []
  logLevel : Option String := none
  logFile : Option Path := none
  deriving DecidableEq, Repr

/-- Why a command line gives no options. -/
inductive Refusal where
  | unknownArgument
  /-- Two options that exclude each other, or one option twice. -/
  | argumentConflict
  /-- A value is missing, or empty where it may not be. -/
  | invalidValue
  /-- A value is no number of the size asked for. -/
  | valueValidation
  /-- A value where none is taken. -/
  | tooManyValues
  | invalidUtf8
  /-- The help text is asked for. -/
  | help
  /-- The version is asked for. -/
  | version
  deriving DecidableEq, Repr

/-- The options that take a value. -/
inductive Flag where
  | command
  | argument
  | tcp
  | root
  | timeout
  | file
  | logLevel
  | logFile
  deriving DecidableEq, Repr

namespace Flag

/-- How an option is written, without its two dashes. -/
def name : Flag → String
  | .command => "command"
  | .argument => "arg"
  | .tcp => "tcp"
  | .root => "root"
  | .timeout => "request-timeout"
  | .file => "open"
  | .logLevel => "log-level"
  | .logFile => "log-file"

/-- All options that take a value. -/
def all : List Flag := [.command, .argument, .tcp, .root, .timeout, .file, .logLevel, .logFile]

/-- The option of a name. -/
def ofName? (name : List Char) : Option Flag := all.find? fun f => f.name.toList == name

/-- Whether the option takes any argument as its value, also one with a dash in
front. -/
def takesDashes (f : Flag) : Bool := f == .argument

end Flag

/-! ### Values -/

/-- A value as text. -/
def text (value : Argument) : Except Refusal String :=
  match Text.decode? value with
  | some s => .ok (String.ofList s)
  | none => .error .invalidUtf8

/-- A value as path. -/
def path (value : Argument) : Except Refusal Path :=
  if value.isEmpty then .error .invalidValue else .ok ⟨value⟩

/-- A value as number of 64 bits. -/
def number (value : Argument) : Except Refusal Nat := do
  match Text.readUnsigned Text.maxWord64 (← text value).toList with
  | some n => pure n
  | none => .error .valueValidation

/-- Set an option that may be given once. -/
def once {α : Type} (before : Option α) (read : Except Refusal α) : Except Refusal (Option α) :=
  match before with
  | some _ => .error .argumentConflict
  | none => read.map some

/-- Take in an option with its value. -/
def Flag.accept (f : Flag) (o : Options) (value : Argument) : Except Refusal Options := do
  match f with
  | .command => return { o with command := ← once o.command (text value) }
  | .argument => return { o with arguments := o.arguments ++ [← text value] }
  | .tcp => return { o with tcp := ← once o.tcp (text value) }
  | .root => return { o with root := ← once o.root (path value) }
  | .timeout => return { o with timeout := ← once o.timeout (number value) }
  | .file => return { o with files := o.files ++ [← path value] }
  | .logLevel => return { o with logLevel := ← once o.logLevel (text value) }
  | .logFile => return { o with logFile := ← once o.logFile (path value) }

/-- Take in an option that came with no value. Only the command has one to fall
back on. -/
def Flag.acceptBare (f : Flag) (o : Options) : Except Refusal Options :=
  match f with
  | .command => do
    return { o with command := ← once o.command (.ok Transport.defaultCommand) }
  | _ => .error .invalidValue

/-! ### Arguments -/

/-- An option that has been named and not been taken in yet. -/
inductive Pending where
  | nothing
  /-- The option still waits for its value. -/
  | open (f : Flag)
  /-- The option has its value. -/
  | complete (f : Flag) (value : Argument)
  deriving DecidableEq, Repr

/-- Take in what is pending. -/
def Pending.settle (p : Pending) (o : Options) : Except Refusal Options :=
  match p with
  | .nothing => .ok o
  | .open f => f.acceptBare o
  | .complete f value => f.accept o value

/-- What an argument is, by its form alone. -/
inductive Form where
  /-- Two dashes, a name, and the value after an equals sign. -/
  | long (name : Argument) (value : Option Argument)
  /-- A dash and letters. -/
  | short (letters : Argument)
  /-- Two dashes alone. -/
  | separator
  /-- Anything else. -/
  | plain
  deriving DecidableEq, Repr

/-- The form of an argument. -/
def form (a : Argument) : Form :=
  match a with
  | 0x2D :: 0x2D :: rest =>
    if rest.isEmpty then .separator
    else
      match Text.splitFirst? 0x3D rest with
      | some (name, value) => .long name (some value)
      | none => .long rest none
  | 0x2D :: c :: rest => .short (c :: rest)
  | _ => .plain

/-- The refusal for short options; only help and version have one. -/
def short (p : Pending) (o : Options) (letters : Argument) : Refusal :=
  let asked :=
    if letters.head? = some 0x68 then Refusal.help
    else if letters.head? = some 0x56 then .version
    else .unknownArgument
  if asked = .unknownArgument then .unknownArgument
  else
    match p.settle o with
    | .error e => e
    | .ok _ => asked

/-- A long option. -/
def long (p : Pending) (o : Options) (name : Argument) (value : Option Argument) :
    Except Refusal (Pending × Options) :=
  match Text.decode? name with
  | none => .error .unknownArgument
  | some s =>
    match Flag.ofName? s with
    | some f => do
      let o ← p.settle o
      match value with
      | some v => return (.nothing, ← f.accept o v)
      | none => return (.open f, o)
    | none =>
      let asked :=
        if s = "help".toList then some Refusal.help
        else if s = "version".toList then some Refusal.version
        else none
      match asked, value with
      | none, _ => .error .unknownArgument
      | some _, some _ => .error .tooManyValues
      | some asked, none => do
        let _ ← p.settle o
        .error asked

/-- What has been read of an argument list. -/
structure Progress where
  pending : Pending := .nothing
  options : Options := {}
  /-- Whether the separator has been seen. -/
  ended : Bool := false
  deriving DecidableEq, Repr

/-- Read one more argument. -/
def Progress.step (s : Progress) (a : Argument) : Except Refusal Progress :=
  match s.ended, form a, s.pending with
  | true, _, _ => .error .unknownArgument
  | false, form, .open f =>
    if f.takesDashes ∨ form = .plain then .ok { s with pending := .complete f a }
    else next form
  | false, form, _ => next form
where
  /-- Read an argument that is not the value of a pending option. -/
  next : Form → Except Refusal Progress
    | .separator => .ok { s with ended := true }
    | .long name value => do
      let (pending, options) ← long s.pending s.options name value
      pure { s with pending, options }
    | .short letters => .error (short s.pending s.options letters)
    | .plain => .error .unknownArgument

/-- The options of an argument list. A command and an address exclude each
other. -/
def Options.parse (arguments : List Argument) : Except Refusal Options := do
  let s ← arguments.foldlM Progress.step {}
  let o ← s.pending.settle s.options
  if o.command.isSome ∧ o.tcp.isSome then .error .argumentConflict else pure o

end LanguageClient.CommandLine
