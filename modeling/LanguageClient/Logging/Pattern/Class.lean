import LanguageClient.Logging.Pattern.Escape
import LanguageClient.Text.Split

/-!
# `LanguageClient.Logging.Pattern.Class`: classes in brackets

A class holds characters, ranges, classes that have a name and classes in
brackets. Operators between them, all alike in rank, keep what is common to both
sides, what only the first has, or what only one of them has. What matters of a
class is how deep it is nested and, among bytes, that it has no byte that is no
character: all items have either none of these bytes or, if they are negated, all
of them.

- `nestedHeight`: how deep things that stand side by side are nested.
- `Extent`: what matters of a class or a part of one.
- `OpenClass`: a class that has been opened and not closed.
- `Class.readRange?`: a character, a range or an escape.
- `Class.read?`: a class behind its opening bracket.
-/

set_option autoImplicit false

namespace LanguageClient.Logging.Pattern

/-- How deep things that stand side by side are nested: to be more than one is a
level of its own. -/
def nestedHeight : List Nat → Nat
  | [] => 0
  | [height] => height
  | heights => 1 + heights.foldl max 0

namespace Class

/-- What matters of a class or a part of one. -/
structure Extent where
  height : Nat := 0
  /-- Whether it has the bytes that are no characters. -/
  wide : Bool := false
  deriving DecidableEq, Repr

/-- How two sides of a class make one. -/
inductive Operator where
  | intersection
  | difference
  | symmetricDifference
  deriving DecidableEq, Repr

/-- Whether two sides together have what each of them may have. -/
def Operator.holds : Operator → Bool → Bool → Bool
  | .intersection, left, right => left && right
  | .difference, left, right => left && !right
  | .symmetricDifference, left, right => left != right

/-- The two sides of an operator put together. -/
def Operator.combine (op : Operator) (left right : Extent) : Extent where
  height := nestedHeight [left.height, right.height]
  wide := op.holds left.wide right.wide

/-- A class that has been opened and not closed. -/
structure OpenClass where
  negated : Bool
  /-- Whether nothing but dashes has been read, which stand for themselves there.
  -/
  atStart : Bool := true
  /-- What stands before the last operator, and the operator. -/
  left : Option (Extent × Operator) := none
  /-- The items behind the last operator. -/
  items : List Extent := []
  deriving DecidableEq, Repr

namespace OpenClass

/-- Read one more item. -/
def add (o : OpenClass) (item : Extent) : OpenClass :=
  { o with atStart := false, items := item :: o.items }

/-- What has been read so far. -/
def body (o : OpenClass) : Extent :=
  let items := ⟨nestedHeight (o.items.map Extent.height), o.items.any Extent.wide⟩
  match o.left with
  | none => items
  | some (left, op) => op.combine left items

/-- Read an operator. -/
def operate (o : OpenClass) (op : Operator) : OpenClass :=
  { o with atStart := false, left := some (o.body, op), items := [] }

/-- What the class is when it is closed. Among bytes it has characters only. -/
def close? (m : Mode) (o : OpenClass) : Option Extent :=
  let wide := o.body.wide != o.negated
  if m.bytes ∧ wide then none else some ⟨1 + o.body.height, wide⟩

end OpenClass

/-- The classes that have a name. -/
def names : List String :=
  ["alnum", "alpha", "ascii", "blank", "cntrl", "digit", "graph", "lower", "print", "punct",
    "space", "upper", "word", "xdigit"]

/-- Read the rest of a class that is given by its name, behind the bracket. -/
def readNamed? (s : List Char) : Option (Extent × List Char) :=
  match s with
  | ':' :: s =>
    let negated := s.head? = some '^'
    match Text.splitFirst? ':' (if negated then s.tail else s) with
    | some (name, ']' :: rest) =>
      if String.ofList name ∈ names then some ({ wide := negated }, rest) else none
    | _ => none
  | _ => none

/-- Open a class, which may be negated. -/
def opening (m : Mode) (s : List Char) : OpenClass × List Char :=
  match m.skipBlanks s with
  | '^' :: s => ({ negated := true }, s)
  | s => ({ negated := false }, s)

/-- Read a character or an escape. -/
def readItem? (m : Mode) : List Char → Option (Item × List Char)
  | [] => none
  | '\\' :: s => Escape.read? m s
  | c :: s => some (.character c.toNat, s)

/-- Whether a class may have an item. -/
def allows (m : Mode) : Item → Bool
  | .character code => m.takes code
  | .anyOf => true
  | .place => false

/-- Read an item or a range. The bounds of a range are characters in order. -/
def readRange? (m : Mode) (s : List Char) : Option (List Char) := do
  let (first, s) ← readItem? m s
  match m.skipBlanks s with
  | '-' :: s =>
    if m.behindDash s = some ']' ∨ m.behindDash s = some '-' then
      if allows m first then some ('-' :: s) else none
    else
      match first, readItem? m (m.skipBlanks s) with
      | .character low, some (.character high, rest) =>
        if low ≤ high ∧ m.takes low ∧ m.takes high then some rest else none
      | _, _ => none
  | s => if allows m first then some s else none

/-- Read a class up to the bracket that closes it, with the classes around, and
how deep it is nested; `fuel` bounds the items. In front a bracket that would close
the class at once stands for itself, and so do dashes. -/
def readFuel? (m : Mode) : Nat → OpenClass → List OpenClass → List Char → Option (Nat × List Char)
  | 0, _, _, _ => none
  | fuel + 1, current, around, s =>
    match m.skipBlanks s with
    | [] => none
    | '[' :: s =>
      match readNamed? s with
      | some (item, s) =>
        if m.takesCharacters then readFuel? m fuel (current.add item) around s else none
      | none =>
        let (inner, s) := opening m s
        readFuel? m fuel inner ({ current with atStart := false } :: around) s
    | c :: s =>
      if current.atStart ∧ (c = '-' ∨ c = ']' ∧ current.items = []) then
        if m.takesCharacters then
          readFuel? m fuel { current.add {} with atStart := c = '-' } around s
        else none
      else if c = ']' then
        match current.close? m, around with
        | some whole, [] => some (whole.height, s)
        | some whole, outer :: around => readFuel? m fuel (outer.add whole) around s
        | none, _ => none
      else if c = '&' ∧ s.head? = some '&' then
        readFuel? m fuel (current.operate .intersection) around s.tail
      else if c = '-' ∧ s.head? = some '-' then
        readFuel? m fuel (current.operate .difference) around s.tail
      else if c = '~' ∧ s.head? = some '~' then
        readFuel? m fuel (current.operate .symmetricDifference) around s.tail
      else (readRange? m (c :: s)).bind (readFuel? m fuel (current.add {}) around)

/-- Read a class behind its opening bracket, and how deep it is nested. -/
def read? (m : Mode) (s : List Char) : Option (Nat × List Char) :=
  let (current, rest) := opening m s
  readFuel? m s.length current [] rest

end Class

end LanguageClient.Logging.Pattern
