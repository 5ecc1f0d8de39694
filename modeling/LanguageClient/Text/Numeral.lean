/-!
# `LanguageClient.Text.Numeral`: unsigned decimal numerals

A numeral is an optional plus sign and at least one ASCII digit; leading zeros
carry no weight. A numeral above the bound of its field is refused, so the
value that comes back always fits.

- `decimalValue`: the number a run of digits denotes.
- `readUnsigned`: the numerals of a field with a largest value.
-/

set_option autoImplicit false

namespace LanguageClient.Text

/-- The largest value of a 16-bit field. -/
def maxWord16 : Nat := Nat.pow 2 16 - 1

/-- The largest value of a 64-bit field. -/
def maxWord64 : Nat := Nat.pow 2 64 - 1

/-- The number that a digit stands for. -/
def digitValue (c : Char) : Nat := c.toNat - '0'.toNat

/-- The number that a run of decimal digits denotes, most significant first. -/
def decimalValue (ds : List Char) : Nat :=
  ds.foldl (fun n c => 10 * n + digitValue c) 0

/-- The digits of a numeral: a leading plus sign says nothing. -/
def unsignedDigits : List Char → List Char
  | '+' :: ds => ds
  | ds => ds

/-- Read an unsigned numeral of at most `max`. -/
def readUnsigned (max : Nat) (s : List Char) : Option Nat :=
  let ds := unsignedDigits s
  if ds ≠ [] ∧ ds.all Char.isDigit ∧ decimalValue ds ≤ max then some (decimalValue ds)
  else none

/-- The decimal numeral of a number, without sign and leading zeros. -/
def decimal (n : Nat) : List Char := Nat.toDigits 10 n

end LanguageClient.Text
