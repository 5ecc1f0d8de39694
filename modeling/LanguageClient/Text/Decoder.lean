import LanguageClient.Text.Utf8

/-!
# `LanguageClient.Text.Decoder`: decoding bytes that arrive in portions

A stream cuts its bytes anywhere, also inside a character. The decoder keeps
the bytes that are not yet text and gives out *pieces*: the longest valid run
at the front, or one invalid sequence, which reads as U+FFFD. An unfinished
sequence at the end waits for the next portion.

- `Decoder.extract`: the next piece, if the buffer starts with one.
- `Decoder.drain`: all pieces, until none is left.
- `decodeLossy`: the text of a whole byte sequence, damage included.
-/

set_option autoImplicit false

namespace LanguageClient.Text

/-- What the decoder gives out at once. -/
inductive Piece where
  /-- A run of valid text. -/
  | text (s : List Char)
  /-- An invalid byte sequence. -/
  | damage (bytes : List UInt8)
  deriving DecidableEq, Repr

/-- How a piece reads: one replacement character stands for an invalid
sequence, whatever its length. -/
def Piece.chars : Piece → List Char
  | .text s => s
  | .damage _ => [replacement]

/-- The bytes that arrived and are not yet text. -/
structure Decoder where
  buffer : List UInt8 := []
  deriving DecidableEq, Repr

namespace Decoder

/-- Take the next piece off the front of the bytes: valid text as far as it
goes, else an invalid sequence. There is none while the bytes are used up or
only begin a character. -/
def extract (bytes : List UInt8) : Option (Piece × List UInt8) :=
  match Utf8.scan bytes with
  | ([], .done) => none
  | ([], .unfinished _) => none
  | ([], .invalid bad rest) => some (.damage bad, rest)
  | (c :: s, .done) => some (.text (c :: s), [])
  | (c :: s, .unfinished tail) => some (.text (c :: s), tail)
  | (c :: s, .invalid bad rest) => some (.text (c :: s), bad ++ rest)

/-- All pieces that the bytes hold, at most `fuel` of them, and what is left. -/
def drainFuel : Nat → List UInt8 → List Piece × List UInt8
  | 0, bytes => ([], bytes)
  | fuel + 1, bytes =>
    match extract bytes with
    | none => ([], bytes)
    | some (piece, rest) =>
      let (pieces, left) := drainFuel fuel rest
      (piece :: pieces, left)

/-- All pieces that the bytes hold, and what is left. A piece takes at least
one byte, so there are no more pieces than bytes. -/
def drain (bytes : List UInt8) : List Piece × List UInt8 := drainFuel bytes.length bytes

/-- Add a portion of the stream and take out every piece it completes. -/
def push (d : Decoder) (portion : List UInt8) : List Piece × Decoder :=
  let (pieces, left) := drain (d.buffer ++ portion)
  (pieces, { d with buffer := left })

end Decoder

/-- The text of a byte sequence in which every invalid sequence, and an
unfinished one at the end, reads as one replacement character. -/
def decodeLossy (bytes : List UInt8) : List Char :=
  let (pieces, left) := Decoder.drain bytes
  pieces.flatMap Piece.chars ++ (if left.isEmpty then [] else [replacement])

end LanguageClient.Text
