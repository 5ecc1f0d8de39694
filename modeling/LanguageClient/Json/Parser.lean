import LanguageClient.Json.Basic
import LanguageClient.Text.Hex
import LanguageClient.Text.Utf8

/-!
# `LanguageClient.Json.Parser`: reading a JSON text

Reading goes from left to right and stops at the first fault, which is one of
three kinds: the text ends too early (*truncated*), it is not JSON
(*malformed*), or it is JSON of another form than asked for (*mismatch*, see
`LanguageClient.Json.Record` and `LanguageClient.Json.Shape`). Brackets may nest
127 deep. Each reader takes the text in front of it and returns the rest.

A part of a text that nobody asked for is only *skipped*: then the pairing of
surrogates, the range of numbers and the depth of nesting are not looked at, and
a number that breaks off is malformed.

- `Fault`, `Purpose`: the kinds of fault; whether a value is kept or skipped.
- `readString`, `readNumber`, `readValue`: the readers.
- `Json.parse`: the value of a whole text.
-/

set_option autoImplicit false

namespace LanguageClient.Json

/-- Why a text has no value. -/
inductive Fault where
  /-- The text is not JSON. -/
  | malformed
  /-- The text ends inside a value, or before it. -/
  | truncated
  /-- The text is JSON, but not of the form asked for. -/
  | mismatch
  deriving DecidableEq, Repr

/-- What a value is read for. -/
inductive Purpose where
  | keep
  | skip
  deriving DecidableEq, Repr

/-- How deep brackets may nest. -/
def maxDepth : Nat := 127

/-- The blanks between tokens. -/
def isBlank (c : Char) : Bool := c == ' ' || c == '\n' || c == '\t' || c == '\r'

/-- Drop the blanks in front. -/
def skipBlanks (s : List Char) : List Char := s.dropWhile isBlank

/-- The fault of a text that does not go on as it should: it ends, or something
else stands there. -/
def unexpected : List Char → Fault
  | [] => .truncated
  | _ :: _ => .malformed

/-- Read a fixed word. -/
def readWord : List Char → List Char → Except Fault (List Char)
  | [], s => .ok s
  | _ :: _, [] => .error .truncated
  | w :: word, c :: s => if w = c then readWord word s else .error .malformed

/-! ### Strings -/

/-- Read the four digits of an escaped code unit. The text has ended if fewer
than four bytes follow. -/
def readHex4 (s : List Char) : Except Fault (Nat × List Char) :=
  match s with
  | a :: b :: c :: d :: rest =>
    match Text.hexValue? a, Text.hexValue? b, Text.hexValue? c, Text.hexValue? d with
    | some a, some b, some c, some d => .ok (((a * 16 + b) * 16 + c) * 16 + d, rest)
    | _, _, _, _ => .error .malformed
  | short => .error (if Text.byteLength short < 4 then .truncated else .malformed)

/-- Whether a code unit is the first of a surrogate pair. -/
def isHighSurrogate (u : Nat) : Bool := 0xD800 ≤ u && u ≤ 0xDBFF

/-- Whether a code unit is the second of a surrogate pair. -/
def isLowSurrogate (u : Nat) : Bool := 0xDC00 ≤ u && u ≤ 0xDFFF

/-- The character of a surrogate pair. -/
def ofSurrogates (high low : Nat) : Char :=
  Char.ofNat (0x10000 + (high - 0xD800) * 0x400 + (low - 0xDC00))

/-- Read the second half of a surrogate pair, which has to be escaped too. -/
def readLowSurrogate (high : Nat) : List Char → Except Fault (Char × List Char)
  | [] => .error .truncated
  | '\\' :: s =>
    match s with
    | 'u' :: s => do
      let (low, rest) ← readHex4 s
      if isLowSurrogate low then pure (ofSurrogates high low, rest) else .error .malformed
    | other => .error (unexpected other)
  | _ :: _ => .error .malformed

/-- Read what follows `\u`: one code unit, or the two of a surrogate pair. -/
def readUnicode (purpose : Purpose) (s : List Char) : Except Fault (Char × List Char) := do
  let (u, rest) ← readHex4 s
  if purpose = .skip then pure (Text.replacement, rest)
  else if isHighSurrogate u then readLowSurrogate u rest
  else if isLowSurrogate u then .error .malformed
  else pure (Char.ofNat u, rest)

/-- The character that a one-letter escape stands for. -/
def simpleEscape? (c : Char) : Option Char :=
  if c = '"' ∨ c = '\\' ∨ c = '/' then some c
  else if c = 'b' then some '\x08'
  else if c = 'f' then some '\x0c'
  else if c = 'n' then some '\n'
  else if c = 'r' then some '\r'
  else if c = 't' then some '\t'
  else none

/-- Read what follows a backslash. -/
def readEscape (purpose : Purpose) : List Char → Except Fault (Char × List Char)
  | [] => .error .truncated
  | 'u' :: s => readUnicode purpose s
  | c :: s =>
    match simpleEscape? c with
    | some e => .ok (e, s)
    | none => .error .malformed

/-- Read a string behind its opening quote, at most `fuel` characters and
escapes. `read` is what was read before, last character first. -/
def readStringFrom (purpose : Purpose) :
    Nat → List Char → List Char → Except Fault (List Char × List Char)
  | 0, _, _ => .error .truncated
  | _ + 1, _, [] => .error .truncated
  | fuel + 1, read, c :: s =>
    if c = '"' then .ok (read.reverse, s)
    else if c = '\\' then do
      let (e, rest) ← readEscape purpose s
      readStringFrom purpose fuel (e :: read) rest
    else if c.toNat < 0x20 then .error .malformed
    else readStringFrom purpose fuel (c :: read) s

/-- Read a string behind its opening quote. -/
def readString (purpose : Purpose) (s : List Char) : Except Fault (String × List Char) := do
  let (read, rest) ← readStringFrom purpose (s.length + 1) [] s
  pure (String.ofList read, rest)

/-! ### Numbers -/

/-- Collect digits into a number as long as it fits 64 bits; the digits that no
longer fit are left over. -/
def collect : Nat → List Char → Nat × List Char
  | n, [] => (n, [])
  | n, d :: ds =>
    let m := 10 * n + Text.digitValue d
    if m ≤ Text.maxWord64 then collect m ds else (n, d :: ds)

/-- The digits in front of a text, and the rest. -/
def spanDigits (s : List Char) : List Char × List Char := s.span Char.isDigit

/-- A numeral in its parts: the digits before the point, those after it, and the
exponent with its sign. -/
structure Numeral where
  negative : Bool
  whole : List Char
  fraction : Option (List Char)
  exponent : Option (Bool × List Char)
  deriving DecidableEq, Repr

/-- The fault of a number that stops short of a digit. -/
def noDigit (purpose : Purpose) (s : List Char) : Fault :=
  if purpose = .skip then .malformed else unexpected s

/-- Read at least one digit. -/
def readDigits (purpose : Purpose) (s : List Char) : Except Fault (List Char × List Char) :=
  match spanDigits s with
  | ([], rest) => .error (noDigit purpose rest)
  | read => .ok read

/-- Read the digits before the point: a leading zero stands alone. -/
def readWhole (purpose : Purpose) (s : List Char) : Except Fault (List Char × List Char) := do
  let (digits, rest) ← readDigits purpose s
  match digits with
  | '0' :: _ :: _ => .error .malformed
  | _ => pure (digits, rest)

/-- Read the point and the digits after it, if there is a point. -/
def readFraction (purpose : Purpose) :
    List Char → Except Fault (Option (List Char) × List Char)
  | '.' :: s => do
    let (digits, rest) ← readDigits purpose s
    pure (some digits, rest)
  | s => .ok (none, s)

/-- The sign of an exponent, and the rest. -/
def exponentSign : List Char → Bool × List Char
  | '+' :: s => (false, s)
  | '-' :: s => (true, s)
  | s => (false, s)

/-- Read the exponent, if there is one. -/
def readExponent (purpose : Purpose) (s : List Char) :
    Except Fault (Option (Bool × List Char) × List Char) :=
  match s with
  | c :: s' =>
    if c = 'e' ∨ c = 'E' then do
      let (negative, s'') := exponentSign s'
      let (digits, rest) ← readDigits purpose s''
      pure (some (negative, digits), rest)
    else .ok (none, s)
  | [] => .ok (none, [])

/-- The value of a numeral; `none` if it is out of range. -/
def Numeral.value? (n : Numeral) : Option Number :=
  let (collected, left) := collect 0 n.whole
  match n.fraction, n.exponent with
  | none, none =>
    if left.isEmpty then some (.ofDigits n.negative collected)
    else signed (Number.ofScientific? collected left.length)
  | fraction, exponent =>
    let digits := fraction.getD []
    let (collected, rest) := collect collected digits
    let places : Int := left.length - (digits.length - rest.length : Nat)
    match exponent with
    | none => signed (Number.ofScientific? collected places)
    | some (negative, ds) =>
      let e := Text.decimalValue ds
      if e < Nat.pow 2 31 then
        signed (Number.ofScientific? collected (if negative then places - e else places + e))
      else if collected = 0 ∨ negative then signed (some Binary64.zero)
      else none
where
  /-- Give a double the sign of the numeral. -/
  signed (x : Option Binary64) : Option Number :=
    x.map fun x => .float (if n.negative then x.neg else x)

/-- Read a number behind its sign. -/
def readNumber (purpose : Purpose) (negative : Bool) (s : List Char) :
    Except Fault (Number × List Char) := do
  let (whole, s) ← readWhole purpose s
  let (fraction, s) ← readFraction purpose s
  let (exponent, rest) ← readExponent purpose s
  match purpose, Numeral.value? ⟨negative, whole, fraction, exponent⟩ with
  | .skip, _ => pure (.int 0, rest)
  | .keep, some n => pure (n, rest)
  | .keep, none => .error .malformed

/-! ### Arrays and objects -/

/-- Read the items of an array up to its closing bracket, at most `fuel` of
them. A comma stands before every item but the first. -/
def readItems (item : List Char → Except Fault (Json × List Char)) :
    Nat → Bool → List Char → Except Fault (List Json × List Char)
  | 0, _, s => .error (unexpected s)
  | fuel + 1, first, s =>
    match skipBlanks s with
    | [] => .error .truncated
    | c :: rest =>
      if c = ']' then .ok ([], rest)
      else if first then do
        let (v, rest) ← item (c :: rest)
        let (items, rest) ← readItems item fuel false rest
        pure (v :: items, rest)
      else if c = ',' then do
        let (v, rest) ← item rest
        let (items, rest) ← readItems item fuel false rest
        pure (v :: items, rest)
      else .error .malformed

/-- Read the key of a field and the colon after it. -/
def readKey (purpose : Purpose) (s : List Char) : Except Fault (String × List Char) :=
  match skipBlanks s with
  | '"' :: s => do
    let (key, s) ← readString purpose s
    match skipBlanks s with
    | ':' :: rest => pure (key, rest)
    | other => .error (unexpected other)
  | other => .error (unexpected other)

/-- Read the fields of an object up to its closing brace, at most `fuel` of
them. A comma stands before every field but the first. -/
def readFields (purpose : Purpose) (item : List Char → Except Fault (Json × List Char)) :
    Nat → Bool → List Char → Except Fault (List (String × Json) × List Char)
  | 0, _, s => .error (unexpected s)
  | fuel + 1, first, s =>
    match skipBlanks s with
    | [] => .error .truncated
    | c :: rest =>
      if c = '\x7d' then .ok ([], rest)
      else if first ∨ c = ',' then do
        let (key, rest) ← readKey purpose (if first then c :: rest else rest)
        let (v, rest) ← item rest
        let (fields, rest) ← readFields purpose item fuel false rest
        pure ((key, v) :: fields, rest)
      else .error .malformed

/-! ### Values -/

/-- Read a value whose brackets nest at most `depth` deep. -/
def readValue (purpose : Purpose) : Nat → List Char → Except Fault (Json × List Char)
  | depth, s =>
    match skipBlanks s with
    | [] => .error .truncated
    | c :: rest =>
      if c = 'n' then do return (.null, ← readWord ['u', 'l', 'l'] rest)
      else if c = 't' then do return (.bool true, ← readWord ['r', 'u', 'e'] rest)
      else if c = 'f' then do return (.bool false, ← readWord ['a', 'l', 's', 'e'] rest)
      else if c = '"' then do
        let (text, rest) ← readString purpose rest
        pure (.string text, rest)
      else if c = '-' then do
        let (n, rest) ← readNumber purpose true rest
        pure (.number n, rest)
      else if c.isDigit then do
        let (n, rest) ← readNumber purpose false (c :: rest)
        pure (.number n, rest)
      else
        match depth with
        | 0 => .error .malformed
        | depth + 1 =>
          if c = '[' then do
            let (items, rest) ← readItems (readValue purpose depth) (rest.length + 1) true rest
            pure (.array items, rest)
          else if c = '\x7b' then do
            let (fields, rest) ←
              readFields purpose (readValue purpose depth) (rest.length + 1) true rest
            pure (ofFields fields, rest)
          else .error .malformed

/-- Only blanks may follow a value. -/
def finish {α : Type} (read : α × List Char) : Except Fault α :=
  match skipBlanks read.2 with
  | [] => .ok read.1
  | _ :: _ => .error .malformed

/-- The value of a text. -/
def parse (s : List Char) : Except Fault Json := readValue .keep maxDepth s >>= finish

end LanguageClient.Json
