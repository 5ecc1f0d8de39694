import LanguageClient.Logging.Pattern.Class
import LanguageClient.Logging.Pattern.Group

/-!
# `LanguageClient.Logging.Pattern`: which patterns are well formed

A log filter may ask a field to match a regular expression. Whether a pattern
matches is never asked here, only whether it is a pattern at all. It stands
between braces and so holds no closing brace: a repetition with a count, which
needs one, never comes to its end. Classes that need more of Unicode than its
code points are not available: digits and words, properties, word boundaries, and
ignoring case. Groups, classes, repetitions and the like may be nested in each
other up to a limit.

- `Part`, `Scope`: what has been read of the group around, as far as it matters.
- `Progress.next?`: one piece of a pattern.
- `isWellFormed`: the patterns.
-/

set_option autoImplicit false

namespace LanguageClient.Logging.Pattern

/-- A part of an alternative. -/
structure Part where
  /-- How deep it is nested. -/
  height : Nat := 0
  /-- Whether it can be repeated. -/
  repeatable : Bool := true
  deriving DecidableEq, Repr

/-- A group that is being read, or the whole of a pattern. -/
structure Scope where
  mode : Mode
  /-- How deep each of the alternatives before is nested. -/
  alternatives : List Nat := []
  /-- The parts of the alternative at hand, the last one first. -/
  parts : List Part := []
  deriving DecidableEq, Repr

namespace Scope

/-- Read one more part. -/
def add (g : Scope) (part : Part) : Scope := { g with parts := part :: g.parts }

/-- Read the sign that ends an alternative. -/
def endAlternative (g : Scope) : Scope :=
  { g with
    alternatives := nestedHeight (g.parts.map Part.height) :: g.alternatives
    parts := [] }

/-- How deep what has been read is nested. -/
def height (g : Scope) : Nat := nestedHeight g.endAlternative.alternatives

/-- Repeat the last part. -/
def repeat? (g : Scope) : Option Scope :=
  match g.parts with
  | [] => none
  | part :: parts =>
    if part.repeatable then some { g with parts := { height := 1 + part.height } :: parts }
    else none

end Scope

/-- How far a pattern has been read. -/
structure Progress where
  /-- The innermost group. -/
  group : Scope
  /-- The groups around, the innermost first. -/
  around : List Scope := []
  names : List (List Char) := []
  deriving DecidableEq, Repr

namespace Progress

/-- Read a part of the innermost group. -/
def add (p : Progress) (part : Part) : Progress := { p with group := p.group.add part }

/-- Read a piece of a pattern. -/
def next? (p : Progress) (c : Char) (s : List Char) : Option (Progress × List Char) :=
  let mode := p.group.mode
  match c with
  | '(' =>
    match Group.read? mode s with
    | some (.setting mode, s) =>
      some ({ p with group := { p.group.add { repeatable := false } with mode } }, s)
    | some (.group mode name, s) =>
      if name.any p.names.contains then none
      else some (⟨{ mode }, p.group :: p.around, name.toList ++ p.names⟩, s)
    | none => none
  | ')' =>
    match p.around with
    | outer :: around =>
      some ({ p with group := outer.add { height := 1 + p.group.height }, around }, s)
    | [] => none
  | '|' => some ({ p with group := p.group.endAlternative }, s)
  | '*' | '+' | '?' =>
    p.group.repeat?.map fun group =>
      ({ p with group }, if s.head? = some '?' then s.tail else s)
  | '[' => (Class.read? mode s).map fun (height, s) => (p.add { height }, s)
  | '{' => none
  | '\\' =>
    match Escape.read? mode s with
    | some (.character _, s) => if mode.takesCharacters then some (p.add {}, s) else none
    | found => found.map fun (_, s) => (p.add {}, s)
  | '^' | '$' => some (p.add {}, s)
  | '.' => if mode.bytes then none else some (p.add {}, s)
  | _ => if mode.takesCharacters then some (p.add {}, s) else none

end Progress

/-- How deep a pattern may be nested. -/
def maxHeight : Nat := 250

/-- Read a pattern to its end, in at most `fuel` pieces. All groups have to be
closed. -/
def readsTo (fuel : Nat) (p : Progress) (s : List Char) : Bool :=
  match fuel, p.group.mode.skipBlanks s with
  | _, [] => p.around.isEmpty && p.group.height ≤ maxHeight
  | 0, _ :: _ => false
  | fuel + 1, c :: s => (p.next? c s).any fun (p, s) => readsTo fuel p s

/-- Whether a text is a numeral with an optional fraction and exponent, or an
infinity, or no number. -/
def isNumeral (s : List Char) : Bool :=
  let unsigned (s : List Char) := if s.head? = some '+' ∨ s.head? = some '-' then s.tail else s
  let s := (unsigned s).map Char.toLower
  let whole := s.takeWhile Char.isDigit
  let rest := s.drop whole.length
  let part := if rest.head? = some '.' then rest.tail.takeWhile Char.isDigit else []
  let rest := if rest.head? = some '.' then rest.drop (1 + part.length) else rest
  let ends :=
    match rest with
    | [] => true
    | 'e' :: exponent => unsigned exponent ≠ [] ∧ (unsigned exponent).all Char.isDigit
    | _ => false
  String.ofList s ∈ ["inf", "infinity", "nan"] || ((whole ≠ [] ∨ part ≠ []) && ends)

/-- Whether a value can be asked for: it is a number, or a pattern. -/
def isWellFormed (value : List Char) : Bool :=
  isNumeral value || readsTo value.length { group := { mode := {} } } value

end LanguageClient.Logging.Pattern
