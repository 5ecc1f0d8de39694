import LanguageClient.Logging.Pattern.Mode
import LanguageClient.Text.Hex

/-!
# `LanguageClient.Logging.Pattern.Escape`: what a backslash stands for

A backslash takes its meaning from a sign, or gives one to a letter. Digits,
spaces and words and the places at their ends are known among bytes only. A code
point may be named by hexadecimal digits; the braces that would allow for more of
them cannot be closed here.

- `Item`: a single thing that a pattern matches.
- `Escape.readCode?`: hexadecimal digits.
- `Escape.read?`: what stands behind a backslash.
-/

set_option autoImplicit false

namespace LanguageClient.Logging.Pattern

/-- A single thing that a pattern matches. -/
inductive Item where
  | character (code : Nat)
  /-- One character of several. -/
  | anyOf
  /-- A place between characters. -/
  | place
  deriving DecidableEq, Repr

namespace Escape

/-- Read some hexadecimal digits, behind digits with a value. -/
def readDigits? (m : Mode) : Nat → Nat → List Char → Option (Nat × List Char)
  | 0, value, s => some (value, s)
  | _ + 1, _, [] => none
  | count + 1, value, c :: s =>
    (Text.hexValue? c).bind fun d => readDigits? m count (16 * value + d) (m.skipBlanks s)

/-- Read a code point of so many hexadecimal digits, below a limit. -/
def readCode? (m : Mode) (count limit : Nat) (s : List Char) : Option (Item × List Char) :=
  (readDigits? m count 0 (m.skipBlanks s)).bind fun (code, s) =>
    if code.isValidChar ∧ code < limit then some (.character code, s) else none

/-- The letters that stand for a control character. -/
def controls : List (Char × Nat) :=
  [('a', 7), ('t', 9), ('n', 10), ('v', 11), ('f', 12), ('r', 13)]

/-- Read what stands behind a backslash. Two hexadecimal digits name a byte where
there are bytes, and no byte may be named that is no character. -/
def read? (m : Mode) (s : List Char) : Option (Item × List Char) :=
  match s with
  | [] => none
  | c :: s =>
    if c = 'x' then readCode? m 2 (if m.bytes then 0x80 else 0x100) s
    else if c = 'u' then readCode? m 4 0x10000 s
    else if c = 'U' then readCode? m 8 0x110000 s
    else if c ∈ ['d', 's', 'w'] then if m.bytes then some (.anyOf, s) else none
    else if c ∈ ['b', 'B', '<', '>'] then if m.bytes then some (.place, s) else none
    else if c = 'A' ∨ c = 'z' then some (.place, s)
    else
      match controls.lookup c with
      | some n => some (.character n, s)
      | none => if c.isAlphanum ∨ 0x7F < c.toNat then none else some (.character c.toNat, s)

end Escape

end LanguageClient.Logging.Pattern
