import LanguageClient.Json.Basic
import LanguageClient.Text.Hex
import LanguageClient.Text.Numeral

/-!
# `LanguageClient.Json.Printer`: the compact text of a value

There are no blanks between the tokens, and fields stand in the order in which
the object holds them. In a string only what has to be escaped is escaped: the
quote, the backslash and the control characters.

- `Json.escape`: how one character of a string is written.
- `Json.print`: the text of a value.
-/

set_option autoImplicit false

namespace LanguageClient.Json

/-- How a character of a string is written. -/
def escape (c : Char) : List Char :=
  if c = '"' then ['\\', '"']
  else if c = '\\' then ['\\', '\\']
  else if c = '\x08' then ['\\', 'b']
  else if c = '\x0c' then ['\\', 'f']
  else if c = '\n' then ['\\', 'n']
  else if c = '\r' then ['\\', 'r']
  else if c = '\t' then ['\\', 't']
  else if c.toNat < 0x20 then
    ['\\', 'u', '0', '0', Text.hexDigit (c.toNat / 16),
      Text.hexDigit (c.toNat % 16)]
  else [c]

/-- A string in quotes. -/
def printString (s : String) : List Char := '"' :: s.toList.flatMap escape ++ ['"']

mutual

/-- The text of a value. -/
def print : Json → List Char
  | .null => ['n', 'u', 'l', 'l']
  | .bool true => ['t', 'r', 'u', 'e']
  | .bool false => ['f', 'a', 'l', 's', 'e']
  | .number n => n.print
  | .string s => printString s
  | .array [] => ['[', ']']
  | .array (v :: items) => '[' :: print v ++ printItems items
  | .object [] => ['\x7b', '\x7d']
  | .object ((k, v) :: fields) =>
    '\x7b' :: printString k ++ ':' :: print v ++ printFields fields

/-- The items after the first one, and the bracket that closes the array. -/
def printItems : List Json → List Char
  | [] => [']']
  | v :: items => ',' :: print v ++ printItems items

/-- The fields after the first one, and the brace that closes the object. -/
def printFields : List (String × Json) → List Char
  | [] => ['\x7d']
  | (k, v) :: fields => ',' :: printString k ++ ':' :: print v ++ printFields fields

end

end LanguageClient.Json
