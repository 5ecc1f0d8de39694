import LanguageClient.Text.Numeral

/-!
# `LanguageClient.SystemError`: what the operating system refuses

Files, child processes and connections fail for reasons that the system numbers.
A few more are found before the system is asked, and these have no number.

- `SystemError`: the reasons.
- `SystemError.number?`, `SystemError.message`: the number of a reason, and its
  text.
- `SystemError.ofNumber`: the reason with a number.
-/

set_option autoImplicit false

namespace LanguageClient

/-- Why the system, or what stands in front of it, refuses something. -/
inductive SystemError where
  | notFound
  | permissionDenied
  | notADirectory
  | isADirectory
  /-- A segment or a whole path is longer than the file system allows. -/
  | nameTooLong
  | brokenPipe
  /-- The system has no such function. -/
  | unsupported
  | networkUnreachable
  | connectionReset
  | connectionRefused
  /-- A path with a zero byte in it. -/
  | zeroInPath
  /-- A command or an argument with a zero byte in it. -/
  | zeroInArgument
  /-- A file whose bytes are no text. -/
  | notText
  /-- The empty path leads nowhere. -/
  | emptyPath
  /-- Any other reason that the system gives. -/
  | other (number : Nat) (text : String)
  deriving DecidableEq, Repr

namespace SystemError

/-- The number of a reason, if the system has given it. -/
def number? : SystemError → Option Nat
  | .notFound => some 2
  | .permissionDenied => some 13
  | .notADirectory => some 20
  | .isADirectory => some 21
  | .nameTooLong => some 36
  | .brokenPipe => some 32
  | .unsupported => some 38
  | .networkUnreachable => some 101
  | .connectionReset => some 104
  | .connectionRefused => some 111
  | .other n _ => some n
  | .zeroInPath | .zeroInArgument | .notText | .emptyPath => none

/-- What a reason says, without its number. -/
def description : SystemError → String
  | .notFound => "No such file or directory"
  | .permissionDenied => "Permission denied"
  | .notADirectory => "Not a directory"
  | .isADirectory => "Is a directory"
  | .nameTooLong => "File name too long"
  | .brokenPipe => "Broken pipe"
  | .unsupported => "Function not implemented"
  | .networkUnreachable => "Network is unreachable"
  | .connectionReset => "Connection reset by peer"
  | .connectionRefused => "Connection refused"
  | .zeroInPath => "file name contained an unexpected NUL byte"
  | .zeroInArgument => "nul byte found in provided data"
  | .notText => "stream did not contain valid UTF-8"
  | .emptyPath => "cannot make an empty path absolute"
  | .other _ text => text

/-- The reasons that are known by their numbers. -/
def numbered : List SystemError :=
  [.notFound, .permissionDenied, .notADirectory, .isADirectory, .nameTooLong, .brokenPipe,
    .unsupported, .networkUnreachable, .connectionReset, .connectionRefused]

/-- The reason with a number; one that is not known says what the system says. -/
def ofNumber (n : Nat) (text : String) : SystemError :=
  (numbered.find? fun e => e.number? == some n).getD (.other n text)

/-- The text of a reason: the system's number stands at the end. -/
def message (e : SystemError) : String :=
  match e.number? with
  | some n => e.description ++ " (os error " ++ String.ofList (Text.decimal n) ++ ")"
  | none => e.description

end SystemError

end LanguageClient
