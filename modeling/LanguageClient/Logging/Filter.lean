import LanguageClient.Logging.Pattern
import LanguageClient.Notice
import LanguageClient.Text.Blank
import LanguageClient.Text.Numeral
import LanguageClient.Text.Split
import LanguageClient.Text.Utf8

/-!
# `LanguageClient.Logging.Filter`: which notices the log takes

A filter is a list of directives with commas between them. A directive is a
level; or a target, which may be followed by a span and a field in brackets and
by an equals sign and a level. Without a level everything is logged.

A directive concerns the notices whose target starts with its own and which have
its field. One that names a span or asks for the value of a field concerns no
notice. Of the directives that concern a notice the most specific one decides. A
filter in which any directive is malformed counts as the level `info`.

A directive is divided with the blanks around it left aside, but its parts are cut
from the whole text, blanks included: with blanks in front, every part is taken
from further ahead. A cut may then fall inside a character, which nothing can be
made of.

- `Directive.parse`: one directive.
- `Filter.ofText?`: the filter that a text denotes.
- `Filter.accepts`: whether a notice of a target is logged.
-/

set_option autoImplicit false

namespace LanguageClient.Logging

/-- What a level lets through: nothing at 0, errors at 1, everything at 5. -/
abbrev Verbosity := Nat

/-- How verbose a log has to be to show a notice of a level. -/
def verbosityOf : Level → Verbosity
  | .error => 1
  | .warning => 2
  | .info => 3
  | .debug => 4

/-- The verbosity that lets everything through. -/
def maxVerbosity : Verbosity := 5

/-- The names of the levels. -/
def verbosityNames : List (String × Verbosity) :=
  [("off", 0), ("error", 1), ("warn", 2), ("info", 3), ("debug", 4), ("trace", maxVerbosity)]

/-- The level that a text names, by name in any case or by number. -/
def verbosity? (s : List Char) : Option Verbosity :=
  match Text.readUnsigned maxVerbosity s with
  | some n => some n
  | none => verbosityNames.lookup (String.ofList (s.map Char.toLower))

/-- Why a text denotes no directive. -/
inductive Fault where
  | malformed
  /-- A cut falls inside a character. -/
  | cutCharacter
  deriving DecidableEq, Repr

/-- One directive. -/
structure Directive where
  /-- How the target of a notice has to start. -/
  target : List Char := []
  /-- A field that a notice has to have. -/
  field : Option String := none
  /-- Whether it may concern notices at all. -/
  concernsNotices : Bool := true
  level : Verbosity := maxVerbosity
  deriving DecidableEq, Repr

namespace Directive

/-- A character with which a directive may begin, unless it is a bracket. -/
def isStart (c : Char) : Bool := c == '-' || c == ':' || c == '_' || Text.isAlphanumeric c

/-- Whether no character is cut in two in front of a byte. -/
def isBoundary (bytes : List UInt8) (position : Nat) : Bool :=
  (bytes.drop position).head?.all fun b => b < 0x80 || 0xC0 ≤ b

/-- The characters between two positions. -/
def cut (text : List Char) (start stop : Nat) : Except Fault (List Char) :=
  let bytes := Text.encode text
  if isBoundary bytes start ∧ isBoundary bytes stop then
    .ok ((Text.decode? ((bytes.take stop).drop start)).getD [])
  else .error .cutCharacter

/-- A directive with a level, as it stands behind an equals sign. -/
def withLevel (d : Directive) (level : List Char) : Except Fault Directive :=
  if level = [] then .ok { d with level := maxVerbosity }
  else
    match verbosity? level with
    | some level => .ok { d with level }
    | none => .error .malformed

/-- A directive that is a level or a target alone. -/
def ofWord (word : List Char) : Directive :=
  match verbosity? word with
  | some level => { level }
  | none => { target := word }

/-- A directive for a field, with the value that it has to have or without. -/
def withField (d : Directive) (field : List Char) : Except Fault Directive :=
  if field = [] then .error .malformed
  else
    match Text.splitOn '=' field with
    | name :: value :: _ =>
      if Pattern.isWellFormed value then
        .ok { d with field := some (String.ofList name), concernsNotices := false }
      else .error .malformed
    | _ => .ok { d with field := some (String.ofList field) }

/-- Where the reading of a directive stands. Most parts have begun at a position.
-/
inductive Stage where
  | start
  /-- In a level or a target. -/
  | word (start : Nat)
  /-- In a span, behind the opening bracket. -/
  | span (start : Nat)
  /-- In a field, behind the opening brace. -/
  | field (start : Nat)
  /-- Behind the closing brace. -/
  | fieldEnd
  /-- Behind the closing bracket. -/
  | spanEnd
  | level (start : Nat)
  deriving DecidableEq, Repr

/-- Read a character at a position of a text. -/
def step (text : List Char) (stage : Stage) (d : Directive) (position : Nat) (c : Char) :
    Except Fault (Stage × Directive) :=
  match stage with
  | .start =>
    if c = '[' then .ok (.span (position + 1), d)
    else if isStart c then .ok (.word position, d)
    else .error .malformed
  | .word start =>
    if c = '=' ∨ c = '[' then do
      let target ← cut text start position
      let next := if c = '=' then Stage.level (position + 1) else .span (position + 1)
      pure (next, { d with target })
    else .ok (stage, d)
  | .span start =>
    if c = ']' then do
      let _ ← cut text start position
      pure (.spanEnd, { d with concernsNotices := false })
    else if c = '\x7b' then do
      let name ← cut text start position
      pure (.field (position + 1), { d with concernsNotices := name.isEmpty })
    else .ok (stage, d)
  | .field start =>
    if c = '\x7d' then do
      let field ← cut text start position
      pure (.fieldEnd, ← d.withField field)
    else .ok (stage, d)
  | .fieldEnd => if c = ']' then .ok (.spanEnd, d) else .error .malformed
  | .spanEnd => if c = '=' then .ok (.level (position + 1), d) else .error .malformed
  | .level _ => .ok (stage, d)

/-- Read characters from a position on, up to the end. -/
def readFrom (text : List Char) (stage : Stage) (d : Directive) (position : Nat) :
    List Char → Except Fault Directive
  | [] =>
    let stop := (Text.encode text).length
    match stage with
    | .word start => (cut text start stop).map ofWord
    | .level start => cut text start stop >>= d.withLevel
    | .spanEnd => .ok d
    | _ => .error .malformed
  | c :: s => do
    let (stage, d) ← step text stage d position c
    readFrom text stage d (position + (Text.encode [c]).length) s

/-- The directive that a text denotes. -/
def parse (text : List Char) : Except Fault Directive :=
  readFrom text .start {} 0 (Text.trim text)

/-- Whether a directive concerns a notice of a target with some fields. -/
def concerns (d : Directive) (target : List Char) (fields : List String) : Bool :=
  d.concernsNotices && d.target.isPrefixOf target && d.field.all fun f => f ∈ fields

/-- Whether of two directives that concern a notice the first is no more specific:
a longer target counts more than a field, and the name of a field tells two fields
apart. -/
def isWithin (d e : Directive) : Bool :=
  d.target.length < e.target.length
    || d.target.length == e.target.length
      && match d.field, e.field with
        | none, _ => true
        | some _, none => false
        | some f, some g => decide (f ≤ g)

end Directive

/-- Which notices a log takes. -/
structure Filter where
  directives : List Directive
  deriving DecidableEq, Repr

namespace Filter

/-- The filter that counts in the place of a malformed one. -/
def standard : Filter := ⟨[{ level := verbosityOf .info }]⟩

/-- The filter that a text denotes, unless a cut falls inside a character. The
first fault counts. -/
def ofText? (s : String) : Option Filter :=
  match ((Text.splitOn ',' s.toList).filter (· ≠ [])).mapM Directive.parse with
  | .ok directives => some ⟨directives⟩
  | .error .malformed => some standard
  | .error .cutCharacter => none

/-- How verbose the log is about notices of a target with some fields: the most
specific directive decides, and of two alike the later one. -/
def verbosityFor (f : Filter) (target : List Char) (fields : List String) : Verbosity :=
  let concerned := f.directives.filter fun d => d.concerns target fields
  let best := concerned.foldl
    (fun best d => if best.all fun b => b.isWithin d then some d else best)
    (none : Option Directive)
  (best.map Directive.level).getD 0

/-- The field that every notice has: its text. -/
def textField : String := "message"

/-- Whether a notice of a target is logged; `extra` are fields besides its text. -/
def accepts (f : Filter) (target : String) (n : Notice) (extra : List String := []) : Bool :=
  verbosityOf n.level ≤ f.verbosityFor target.toList (textField :: extra)

end Filter

end LanguageClient.Logging
