import LanguageClient.Json.Basic

/-!
# `LanguageClient.Json.Shape`: the form that a value is asked to have

A shape says which values are wanted and what is kept of them. Reading a value
by a shape drops the fields of a record that the shape does not name and leaves
out optional ones that are absent or `null`; the result is again a value, so
what was understood can be shown.

- `Shape`: the forms; a record may also be given as an array of all its fields.
- `Shape.read`: the part of a value that a shape keeps, if it has that form.
-/

set_option autoImplicit false

namespace LanguageClient

/-- Whether a record has to have a field, and what stands for one it lacks. -/
inductive Presence where
  /-- The field has to be there. -/
  | required
  /-- It may be absent or `null`, and is then left out. -/
  | optional
  /-- It may be absent or `null`, and is then kept as `null`. -/
  | nullable
  deriving DecidableEq, Repr

/-- The form of a value. -/
inductive Shape where
  /-- Any value. -/
  | any
  /-- Only `null`. -/
  | unit
  | boolean
  | text
  /-- One of a few strings, or an object with one of them as its only field, which
  is `null`. -/
  | word (choices : List String)
  /-- A whole number between two bounds. -/
  | integer (low high : Int)
  | list (item : Shape)
  /-- An object with these fields. If it is `positional`, an array of all the
  fields in this order is one too. -/
  | record (positional : Bool) (fields : List (String × Presence × Shape))
  /-- The first of these shapes that the value has. -/
  | oneOf (choices : List Shape)

namespace Shape

/-- The signed 32-bit whole numbers. -/
def int32 : Shape := .integer (-Int.pow 2 31) (Int.pow 2 31 - 1)

/-- The unsigned 64-bit whole numbers. -/
def word64 : Shape := .integer 0 (Int.pow 2 64 - 1)

/-- The values of the fields of a record, in order. -/
def candidates (positional : Bool) (names : List String) : Json → Option (List (Option Json))
  | .object fields => some (names.map (Json.lookup fields))
  | .array items =>
    if positional ∧ items.length = names.length then some (items.map some) else none
  | _ => none

mutual

/-- The part of a value that the shape keeps; `none` if it has another form. -/
def read : Shape → Json → Option Json
  | .any, v => some v
  | .unit, v => if v = .null then some .null else none
  | .boolean, v =>
    match v with
    | .bool b => some (.bool b)
    | _ => none
  | .text, v =>
    match v with
    | .string s => some (.string s)
    | _ => none
  | .word choices, v =>
    match v with
    | .string s | .object [(s, .null)] => if s ∈ choices then some (.string s) else none
    | _ => none
  | .integer low high, v =>
    match v with
    | .number (.int i) => if low ≤ i ∧ i ≤ high then some (.int i) else none
    | _ => none
  | .list item, v =>
    match v with
    | .array items => (items.mapM (read item)).map .array
    | _ => none
  | .record positional fields, v =>
    match candidates positional (fields.map Prod.fst) v with
    | some values => (readFields fields values).map .object
    | none => none
  | .oneOf choices, v => readFirst choices v

/-- The fields that a record keeps. -/
def readFields : List (String × Presence × Shape) → List (Option Json) →
    Option (List (String × Json))
  | [], _ => some []
  | (name, presence, shape) :: fields, values => do
    let kept ← readFields fields values.tail
    match presence, values.head?.join with
    | .required, some v => return (name, ← read shape v) :: kept
    | .required, none => none
    | .optional, v =>
      match Json.presence v with
      | some v => return (name, ← read shape v) :: kept
      | none => return kept
    | .nullable, v =>
      match Json.presence v with
      | some v => return (name, ← read shape v) :: kept
      | none => return (name, .null) :: kept

/-- What the first shape that fits keeps. -/
def readFirst : List Shape → Json → Option Json
  | [], _ => none
  | shape :: choices, v =>
    match read shape v with
    | some kept => some kept
    | none => readFirst choices v

end

end Shape

end LanguageClient
