import LanguageClient.Path
import LanguageClient.Text.Hex
import LanguageClient.Uri.Reference

/-!
# `LanguageClient.Uri.File`: the URI of a path

Only an absolute path has a URI. Its segments follow `file://`, each after a
slash; the root alone is a slash. Bytes that a segment of a URL may not hold as
they are become `%` and two hexadecimal digits in upper case.

- `isLiteralByte`: the bytes that stay as they are.
- `ofPath?`: the URI of an absolute path.
-/

set_option autoImplicit false

namespace LanguageClient.Uri

/-- The bytes that stand for themselves in a segment: printable ASCII except
for blanks, quotes, the characters that end or divide a path, and braces. -/
def isLiteralByte (b : UInt8) : Bool :=
  0x20 < b && b < 0x7F
    && !([0x22, 0x23, 0x25, 0x2F, 0x3C, 0x3E, 0x3F, 0x5C, 0x60, 0x7B, 0x7D].contains b)

/-- A hexadecimal digit, in upper case. -/
def upperHexDigit (n : Nat) : Char := (Text.hexDigit n).toUpper

/-- How a byte is written. -/
def encodeByte (b : UInt8) : List Char :=
  if isLiteralByte b then [Char.ofNat b.toNat]
  else ['%', upperHexDigit (b.toNat / 16), upperHexDigit (b.toNat % 16)]

/-- The scheme and the empty authority of a file. -/
def fileStart : List Char := ['f', 'i', 'l', 'e', ':', '/', '/']

/-- The segments of a path as they stand in a URI. -/
def encodeSegments (segments : List (List UInt8)) : List Char :=
  if segments == [] then ['/'] else segments.flatMap fun s => '/' :: s.flatMap encodeByte

/-- The URI of an absolute path, as text. -/
def ofPath? (p : Path) : Option String :=
  if p.isAbsolute then some (String.ofList (fileStart ++ encodeSegments p.meaningful)) else none

end LanguageClient.Uri
