import LanguageClient.Json.Parser

/-!
# `LanguageClient.Json.Record`: reading a record straight from a text

A record has named fields in a fixed order. It is read from an object, in any
order and with other fields ignored, or from an array that holds all fields in
that order. The text is read only once and the first fault ends it, so a field
of the wrong form hides a text that breaks off later on. A field that occurs
twice is a mismatch, unlike in a value that is read untyped.

- `Field`, `FieldKind`: what a record is made of.
- `readRecord`: the values of the fields; a field that is absent or `null` is
  `none` where the record leaves it optional.
-/

set_option autoImplicit false

namespace LanguageClient.Json

/-- What a field holds. -/
inductive FieldKind where
  /-- A string. -/
  | text
  /-- Any value. -/
  | any
  /-- Any value; it may be absent, and `null` counts as absent. -/
  | optional
  deriving DecidableEq, Repr

/-- A field of a record. -/
structure Field where
  name : String
  kind : FieldKind
  deriving DecidableEq, Repr

/-- The fault of a value that should have been a string: a scalar is read
first, and its own fault comes before the mismatch. -/
def refuse (s : List Char) : Fault :=
  match skipBlanks s with
  | [] => .truncated
  | c :: rest =>
    if c = '[' ∨ c = '\x7b' then .mismatch
    else
      match readValue .keep 0 (c :: rest) with
      | .error fault => fault
      | .ok _ => .mismatch

/-- Read the value of a field; `depth` is how deep its brackets may nest. -/
def readField (kind : FieldKind) (depth : Nat) (s : List Char) :
    Except Fault (Option Json × List Char) :=
  match kind with
  | .text =>
    match skipBlanks s with
    | '"' :: s => do
      let (text, rest) ← readString .keep s
      pure (some (.string text), rest)
    | other => .error (refuse other)
  | .any => do
    let (v, rest) ← readValue .keep depth s
    pure (some v, rest)
  | .optional => do
    let (v, rest) ← readValue .keep depth s
    pure (presence (some v), rest)

/-- Fields in the order in which a text gives them: each name with its value. -/
abbrev Found := List (String × Option Json)

/-- Read the fields of an object up to its closing brace, at most `fuel` of
them; `found` are the fields of the record read before. -/
def readNamed (fields : List Field) (depth : Nat) :
    Nat → Bool → Found → List Char → Except Fault (Found × List Char)
  | 0, _, _, s => .error (unexpected s)
  | fuel + 1, first, found, s =>
    match skipBlanks s with
    | [] => .error .truncated
    | c :: rest =>
      if c = '\x7d' then .ok (found, rest)
      else if first ∨ c = ',' then
        match skipBlanks (if first then c :: rest else rest) with
        | '"' :: s => do
          let (key, s) ← readString .keep s
          match fields.find? (fun f => f.name == key) with
          | some f =>
            if found.any (fun entry => entry.1 == key) then .error .mismatch
            else do
              let s ← readColon s
              let (v, rest) ← readField f.kind depth s
              readNamed fields depth fuel false (found ++ [(key, v)]) rest
          | none => do
            let s ← readColon s
            let (_, rest) ← readValue .skip s.length s
            readNamed fields depth fuel false found rest
        | other => .error (unexpected other)
      else .error .malformed
where
  /-- Read the colon after a key. -/
  readColon (s : List Char) : Except Fault (List Char) :=
    match skipBlanks s with
    | ':' :: rest => .ok rest
    | other => .error (unexpected other)

/-- The fields in the order of the record; one that was not found has to be
optional. -/
def arrange (fields : List Field) (found : Found) : Except Fault (List (Option Json)) :=
  fields.mapM fun f =>
    match found.find? (fun entry => entry.1 == f.name) with
    | some (_, v) => .ok v
    | none => if f.kind = .optional then .ok none else .error .mismatch

/-- Where the next item of an array starts; if the array ends, fields are
missing. -/
def itemStart (first : Bool) (s : List Char) : Except Fault (List Char) :=
  match skipBlanks s with
  | [] => .error .truncated
  | c :: rest =>
    if c = ']' then .error .mismatch
    else if first then .ok (c :: rest)
    else if c = ',' then
      match skipBlanks rest with
      | ']' :: _ => .error .malformed
      | other => .ok other
    else .error .malformed

/-- Read the fields of a record from the items of an array, all of them in
order, and the bracket that closes the array. -/
def readPositional (depth : Nat) :
    List Field → Bool → List Char → Except Fault (List (Option Json) × List Char)
  | [], _, s =>
    match skipBlanks s with
    | ']' :: rest => .ok ([], rest)
    | other => .error (unexpected other)
  | f :: fields, first, s => do
    let s ← itemStart first s
    let (v, rest) ← readField f.kind depth s
    let (vs, rest) ← readPositional depth fields false rest
    pure (v :: vs, rest)

/-- The fields of a record that makes up a whole text. -/
def readRecord (fields : List Field) (s : List Char) : Except Fault (List (Option Json)) :=
  match skipBlanks s with
  | [] => .error .truncated
  | c :: rest =>
    if c = '\x7b' then do
      let (found, rest) ← readNamed fields (maxDepth - 1) (rest.length + 1) true [] rest
      let vs ← arrange fields found
      finish (vs, rest)
    else if c = '[' then do
      finish (← readPositional (maxDepth - 1) fields true rest)
    else .error (refuse (c :: rest))

end LanguageClient.Json
