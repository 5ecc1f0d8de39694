/-!
# `LanguageClient.Text.Utf8`: UTF-8 and its damage

The encoding is given by a table: each lead byte says in which ranges the bytes
after it have to lie. Everything else follows from the table. A byte sequence
is *unfinished* if it could still become a character, and *invalid* if the next
byte has ruled that out; the invalid sequence is then the longest one that was
still possible (the maximal subpart), and decoding puts one U+FFFD in its
place.

- `followers`: the table.
- `scan`: read characters until the bytes end or are invalid.
- `decode?`: the text of a byte sequence without damage.
- `encode`, `byteLength`: the way back, and its size.
-/

set_option autoImplicit false

namespace LanguageClient.Text

/-- The replacement character U+FFFD. -/
def replacement : Char := '\uFFFD'

/-- The UTF-8 bytes of a text. -/
def encode (s : List Char) : List UInt8 := s.flatMap String.utf8EncodeChar

/-- The number of bytes that the UTF-8 form of a text has. -/
def byteLength (s : List Char) : Nat := s.foldl (fun n c => n + c.utf8Size) 0

namespace Utf8

/-- A closed range of byte values. -/
structure ByteRange where
  low : UInt8
  high : UInt8
  deriving DecidableEq, Repr

/-- Whether a byte lies in the range. -/
def ByteRange.contains (r : ByteRange) (b : UInt8) : Bool := r.low ≤ b && b ≤ r.high

/-- The range of the bytes that continue a sequence in general. -/
def continuation : ByteRange := ⟨0x80, 0xBF⟩

/-- Where the bytes after a lead byte have to lie; `none` if the byte starts no
sequence. The narrowed second ranges shut out overlong forms, surrogates and
values above U+10FFFF. -/
def followers (b : UInt8) : Option (List ByteRange) :=
  if b < 0x80 then some []
  else if b < 0xC2 then none
  else if b < 0xE0 then some [continuation]
  else if b == 0xE0 then some [⟨0xA0, 0xBF⟩, continuation]
  else if b == 0xED then some [⟨0x80, 0x9F⟩, continuation]
  else if b < 0xF0 then some [continuation, continuation]
  else if b == 0xF0 then some [⟨0x90, 0xBF⟩, continuation, continuation]
  else if b < 0xF4 then some [continuation, continuation, continuation]
  else if b == 0xF4 then some [⟨0x80, 0x8F⟩, continuation, continuation]
  else none

/-- The part of the code point that a lead byte carries. -/
def leadBits (b : UInt8) : Nat :=
  if b < 0x80 then b.toNat
  else if b < 0xE0 then b.toNat % 32
  else if b < 0xF0 then b.toNat % 16
  else b.toNat % 8

/-- A sequence under way: the bytes read, what they say so far, where the next
byte has to lie, and where the ones after it. -/
structure Partial where
  bytes : List UInt8
  value : Nat
  next : ByteRange
  later : List ByteRange
  deriving DecidableEq, Repr

/-- Why a scan ended. -/
inductive Stop where
  /-- The bytes ended between two characters. -/
  | done
  /-- The bytes ended inside a sequence that may still become a character. -/
  | unfinished (bytes : List UInt8)
  /-- These bytes can become no character; the rest follows them. -/
  | invalid (bytes rest : List UInt8)
  deriving DecidableEq, Repr

/-- Read characters until the bytes end or an invalid sequence is complete.
`current` is the sequence under way, `read` the text so far, last character
first. -/
def scanFrom (current : Option Partial) (read : List Char) :
    List UInt8 → List Char × Stop
  | [] =>
    (read.reverse,
      match current with
      | none => .done
      | some p => .unfinished p.bytes)
  | b :: rest =>
    match current with
    | none =>
      match followers b with
      | none => (read.reverse, .invalid [b] rest)
      | some [] => scanFrom none (Char.ofNat (leadBits b) :: read) rest
      | some (next :: later) => scanFrom (some ⟨[b], leadBits b, next, later⟩) read rest
    | some p =>
      if p.next.contains b then
        let value := 64 * p.value + b.toNat % 64
        match p.later with
        | [] => scanFrom none (Char.ofNat value :: read) rest
        | next :: later => scanFrom (some ⟨p.bytes ++ [b], value, next, later⟩) read rest
      else (read.reverse, .invalid p.bytes (b :: rest))

/-- Read characters until the bytes end or an invalid sequence is complete. -/
def scan (bytes : List UInt8) : List Char × Stop := scanFrom none [] bytes

end Utf8

/-- The text of a byte sequence that is all valid. -/
def decode? (bytes : List UInt8) : Option (List Char) :=
  match Utf8.scan bytes with
  | (s, .done) => some s
  | _ => none

end LanguageClient.Text
