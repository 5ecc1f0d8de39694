import LanguageClient.Text.Decoder
import LanguageClient.Text.Split

/-!
# `LanguageClient.Path`: file system paths

A path is a sequence of bytes in which slashes separate segments. Empty segments
and `.` mean nothing, except for a `.` in front of a relative path; `..` is kept,
since only the file system knows what it leads to. The name of a path is its
last segment unless that is `..`; the part after the last dot of a name is its
extension, but a dot in front only hides the file.

- `Path.name?`, `Path.stem?`, `Path.extension?`: the parts of the last segment.
- `Path.withName`: the sibling with another name.
- `Path.absolute?`: the path as seen from a working directory.
- `Path.display`: the path as text, damaged bytes as U+FFFD.
-/

set_option autoImplicit false

namespace LanguageClient

/-- A path, as the file system takes it. -/
structure Path where
  bytes : List UInt8
  deriving DecidableEq, Repr

namespace Path

/-- The byte that separates segments. -/
def slash : UInt8 := 0x2F

/-- The byte that starts an extension. -/
def dot : UInt8 := 0x2E

/-- The path that a text spells. -/
def ofString (s : String) : Path := ⟨Text.encode s.toList⟩

/-- The path as text. -/
def display (p : Path) : String := String.ofList (Text.decodeLossy p.bytes)

/-- Whether the path starts at the root. -/
def isAbsolute (p : Path) : Bool := p.bytes.head? == some slash

/-- Whether a segment means nothing. -/
def isIdle (segment : List UInt8) : Bool := segment == [] || segment == [dot]

/-- Whether a segment names a file or directory. -/
def isName (segment : List UInt8) : Bool := !isIdle segment && segment != [dot, dot]

/-- The segments of the path; the first one is empty if the path is absolute. -/
def segments (p : Path) : List (List UInt8) := Text.splitOn slash p.bytes

/-- The segments that mean something, below the root. -/
def meaningful (p : Path) : List (List UInt8) := p.segments.filter fun s => !isIdle s

/-- The name of the file or directory. -/
def name? (p : Path) : Option (List UInt8) := p.meaningful.getLast?.filter isName

/-- A name cut at its last dot. A name with no dot but one in front is all
stem. -/
def cutName (name : List UInt8) : List UInt8 × Option (List UInt8) :=
  match Text.splitLast? dot name with
  | some ([], _) => (name, none)
  | some (stem, extension) => (stem, some extension)
  | none => (name, none)

/-- The name without its extension. -/
def stem? (p : Path) : Option (List UInt8) := p.name?.map fun name => (cutName name).1

/-- The extension of the name, without the dot. -/
def extension? (p : Path) : Option (List UInt8) := p.name?.bind fun name => (cutName name).2

/-- The segments without idle ones at the end. The first segment stays: it is
what makes a path absolute, or starts it at the working directory. -/
def trimIdle : List (List UInt8) → List (List UInt8)
  | [] => []
  | first :: rest => first :: (rest.reverse.dropWhile isIdle).reverse

/-- The path with another last segment. -/
def withName (p : Path) (name : List UInt8) : Path :=
  ⟨Text.joinWith [slash] (trimIdle (trimIdle p.segments).dropLast ++ [name])⟩

/-- Segments joined below the root. -/
def rooted (lead : List UInt8) (segments : List (List UInt8)) (isDirectory : Bool) : Path :=
  let body := lead ++ Text.joinWith [slash] segments
  ⟨if isDirectory && body.getLast? != some slash then body ++ [slash] else body⟩

/-- The path as seen from a working directory: idle segments go, and a slash at
the end stays. Two slashes in front are kept, more than two count as one. An
empty path leads nowhere. -/
def absolute? (working p : Path) : Option Path :=
  if p.bytes == [] then none
  else
    let isDirectory := p.bytes.getLast? == some slash
    if p.isAbsolute then
      let double := p.bytes.take 2 == [slash, slash] && p.bytes.take 3 != [slash, slash, slash]
      some (rooted (if double then [slash, slash] else [slash]) p.meaningful isDirectory)
    else
      let below := if working.bytes.getLast? == some slash then working.bytes
        else working.bytes ++ [slash]
      if p.meaningful == [] then
        some ⟨if isDirectory then below else working.bytes⟩
      else some (rooted below p.meaningful isDirectory)

end Path

end LanguageClient
