import LanguageClient.Scripted.Server

/-!
# `LanguageClient.Scripted.Pipe`: a stream and the other end of it

The other end reads everything that is written, until it goes. What is written
after that breaks.

- `Pipe`: the stream, and what the other end has seen.
- `Pipe.leave`: the other end goes.
- `Pipe.settle`: the writer goes on as far as it can.
-/

set_option autoImplicit false

namespace LanguageClient.Scripted

/-- A stream and the other end of it. -/
structure Pipe where
  stream : Stream := {}
  /-- Whether the other end has gone. -/
  gone : Bool := false
  /-- Whether the other end has seen the stream end. -/
  sawEnd : Bool := false
  deriving DecidableEq, Repr

namespace Pipe

/-- The other end goes. -/
def leave (p : Pipe) : Pipe := { p with stream := p.stream.finish.1, gone := true }

/-- The writer goes on as far as it can, and the other end takes notice. -/
def settle (p : Pipe) : Pipe :=
  let stream := p.stream.drain (refusal p.gone)
  { p with stream, sawEnd := p.sawEnd || (stream.writer == .finished && !p.gone) }

/-- The text that reached the other end after so many pieces. -/
def textSince (p : Pipe) (pieces : Nat) : List Char :=
  if p.gone then [] else (p.stream.written.drop pieces).flatten

end Pipe

end LanguageClient.Scripted
