/-!
# `LanguageClient.Text.Hex`: hexadecimal digits

- `hexValue?`, `hexDigit`: a digit and its value; digits are written in lower
  case.
- `toHex`, `ofHex`: bytes as pairs of digits, and back.
-/

set_option autoImplicit false

namespace LanguageClient.Text

/-- The value of a hexadecimal digit. -/
def hexValue? (c : Char) : Option Nat :=
  if '0' ≤ c ∧ c ≤ '9' then some (c.toNat - 48)
  else if 'a' ≤ c ∧ c ≤ 'f' then some (c.toNat - 87)
  else if 'A' ≤ c ∧ c ≤ 'F' then some (c.toNat - 55)
  else none

/-- The hexadecimal digit of a value below 16. -/
def hexDigit (n : Nat) : Char := if n < 10 then Char.ofNat (48 + n) else Char.ofNat (87 + n)

/-- Bytes as pairs of digits. -/
def toHex (bytes : List UInt8) : List Char :=
  bytes.flatMap fun b => [hexDigit (b.toNat / 16), hexDigit (b.toNat % 16)]

/-- The bytes of pairs of digits, as far as there are any. -/
def ofHex : List Char → List UInt8
  | a :: b :: rest =>
    match hexValue? a, hexValue? b with
    | some high, some low => UInt8.ofNat (16 * high + low) :: ofHex rest
    | _, _ => []
  | _ => []

end LanguageClient.Text
