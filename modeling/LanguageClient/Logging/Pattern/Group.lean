import LanguageClient.Logging.Pattern.Mode
import LanguageClient.Text.Alphanumeric
import LanguageClient.Text.Split

/-!
# `LanguageClient.Logging.Pattern.Group`: what opens a group

A parenthesis opens a group, which may have a name or flags of its own. Flags
without a group hold for the rest of the group around.

- `readFlags`: flags up to the character that ends them.
- `isName`: the names that a group may have.
- `Opening`, `read?`: what stands behind an opening parenthesis.
-/

set_option autoImplicit false

namespace LanguageClient.Logging.Pattern.Group

/-- The flags that a group may set. -/
def flags : List Char := ['i', 'm', 's', 'U', 'u', 'R', 'x']

/-- Read flags up to a colon or a parenthesis; the ones after a dash are cleared.
No flag and no dash stands twice, and a dash does not stand last. The character
that ended them comes back with the rest. -/
def readFlags (m : Mode) (seen : List Char) : List Char → Option (Mode × Char × List Char)
  | [] => none
  | c :: s =>
    if c = ':' ∨ c = ')' then
      if seen.head? = some '-' ∨ c = ')' ∧ seen = [] then none else some (m, c, s)
    else if c ∈ seen then none
    else if c = '-' then readFlags m (c :: seen) s
    else if c ∈ flags then readFlags (m.setFlag c ('-' ∉ seen)) (c :: seen) s
    else none

/-- Whether a text names a group: a letter or a low line, then letters, numbers
and some signs. -/
def isName : List Char → Bool
  | [] => false
  | c :: s =>
    (c == '_' || Text.isLetter c)
      && s.all fun c => c ∈ ['_', '.', '[', ']'] || Text.isAlphanumeric c

/-- What stands behind an opening parenthesis. -/
inductive Opening where
  /-- A group with the mode inside of it, and its name if it has one. -/
  | group (m : Mode) (name : Option (List Char))
  /-- A mode for the rest of the group around. -/
  | setting (m : Mode)
  deriving DecidableEq, Repr

/-- Read a name up to its closing angle bracket. -/
def readName? (m : Mode) (s : List Char) : Option (Opening × List Char) :=
  (Text.splitFirst? '>' s).bind fun (name, rest) =>
    if isName name then some (.group m (some name), rest) else none

/-- Read what stands behind an opening parenthesis. Looking ahead or back is not
available. -/
def read? (m : Mode) (s : List Char) : Option (Opening × List Char) :=
  match m.skipBlanks s with
  | '?' :: 'P' :: '<' :: s => readName? m s
  | '?' :: '<' :: s => readName? m s
  | '?' :: s =>
    (readFlags m [] s).map fun (m, c, s) =>
      (if c = ')' then Opening.setting m else .group m none, s)
  | s => some (.group m none, s)

end LanguageClient.Logging.Pattern.Group
