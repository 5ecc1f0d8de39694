/-!
# `LanguageClient.Text.Blank`: white space and trimming

Trimming follows the Unicode property White_Space, which has 25 characters.
ASCII blanks alone would not do: a header name or a server address may be
surrounded by a no-break space or a line separator, and these go too.

- `isBlank`: the property, as a range test.
- `trimStart`, `trimEnd`, `trim`: the longest blank run leaves an end.
- `allBlank`: there is nothing but blanks.
-/

set_option autoImplicit false

namespace LanguageClient.Text

/-- The characters with the property White_Space. -/
def isBlank (c : Char) : Bool :=
  let n := c.toNat
  (9 ≤ n && n ≤ 13) || n == 0x20 || n == 0x85 || n == 0xA0 || n == 0x1680
    || (0x2000 ≤ n && n ≤ 0x200A) || n == 0x2028 || n == 0x2029 || n == 0x202F
    || n == 0x205F || n == 0x3000

/-- Drop the characters of a class from the end. -/
def dropEndWhile (p : Char → Bool) (s : List Char) : List Char :=
  (s.reverse.dropWhile p).reverse

/-- Drop the blanks in front. -/
def trimStart (s : List Char) : List Char := s.dropWhile isBlank

/-- Drop the blanks at the end. -/
def trimEnd (s : List Char) : List Char := dropEndWhile isBlank s

/-- Drop the blanks at both ends. -/
def trim (s : List Char) : List Char := trimEnd (trimStart s)

/-- A text that is empty or holds only blanks. -/
def allBlank (s : List Char) : Bool := s.all isBlank

end LanguageClient.Text
