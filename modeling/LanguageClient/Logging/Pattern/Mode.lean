import LanguageClient.Text.Blank

/-!
# `LanguageClient.Logging.Pattern.Mode`: the flags in force in a pattern

Flags decide which pieces of a pattern are available and whether blanks count.
Some need more of Unicode than its code points, and there are no tables for it.

- `Mode`: the flags, and `Mode.takes`, the characters that may be named.
- `Mode.skipBlanks`: blanks and comments that do not count.
- `Mode.behindDash`: what decides whether a dash in a class stands for a range.
-/

set_option autoImplicit false

namespace LanguageClient.Logging.Pattern

/-- The flags that decide what is available and what counts. -/
structure Mode where
  /-- Whether case is ignored. -/
  folds : Bool := false
  /-- Whether classes and places are about bytes. -/
  bytes : Bool := false
  /-- Whether blanks do not count and a number sign begins a comment. -/
  spaced : Bool := false
  deriving DecidableEq, Repr

namespace Mode

/-- A mode with a flag set or cleared. -/
def setFlag (m : Mode) (flag : Char) (value : Bool) : Mode :=
  if flag = 'i' then { m with folds := value }
  else if flag = 'u' then { m with bytes := !value }
  else if flag = 'x' then { m with spaced := value }
  else m

/-- Whether single characters are available: ignoring case takes tables, except
among bytes. -/
def takesCharacters (m : Mode) : Bool := !m.folds || m.bytes

/-- Whether a class may name a character. Among bytes it has to be one byte long.
-/
def takes (m : Mode) (code : Nat) : Bool := m.takesCharacters && (!m.bytes || code < 0x80)

/-- The rest behind blanks and comments. A comment goes to the end of its line.
-/
def dropBlanks (inComment : Bool) : List Char → List Char
  | [] => []
  | c :: s =>
    if inComment then dropBlanks (c ≠ '\n') s
    else if Text.isBlank c then dropBlanks false s
    else if c = '#' then dropBlanks true s
    else c :: s

/-- The rest behind what does not count. -/
def skipBlanks (m : Mode) (s : List Char) : List Char :=
  if m.spaced then dropBlanks false s else s

/-- The character behind a dash that decides whether the dash stands for a range.
Blanks are passed over; of a comment, only the blanks at its start are. -/
def behindDash (m : Mode) (s : List Char) : Option Char :=
  if m.spaced then
    let s := s.dropWhile Text.isBlank
    (if s.head? = some '#' then s.tail.dropWhile Text.isBlank else s).head?
  else s.head?

end Mode

end LanguageClient.Logging.Pattern
