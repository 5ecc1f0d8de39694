import LanguageClient.Json.Binary64
import LanguageClient.Text.Numeral

/-!
# `LanguageClient.Json.Number`: the numbers of a JSON text

A numeral without fraction and exponent is a whole number as long as it fits 64
bits (unsigned, or signed if negative); every other numeral is a double.

A double is read in two steps. The leading digits are collected as long as they
fit 64 bits, the digits after them only shift the point; then the collected
number is scaled by a power of ten in double arithmetic, with one rounding for
each operation. The result can therefore differ from the nearest double in its
last bit.

- `Number.int`, `Number.float`: the two kinds.
- `Number.ofScientific?`: the second step; `none` if the value is out of range.
- `Number.print`: whole numbers in decimal, doubles by their shortest digits.
-/

set_option autoImplicit false

namespace LanguageClient

/-- A number: whole, or a double. -/
inductive Number where
  | int (value : Int)
  | float (value : Binary64)
  deriving DecidableEq, Repr

namespace Number

/-- The least whole number that keeps its digits. -/
def minInt : Int := -Int.pow 2 63

/-- The greatest whole number that keeps its digits. -/
def maxInt : Int := Int.pow 2 64 - 1

/-- The largest power of ten that a single step scales by. -/
def largestPower : Nat := 308

/-- Divide by `10^k`, in steps of `10^308`; zero stays zero. -/
def scaleDown (x : Binary64) (k : Nat) : Binary64 :=
  if k ≤ largestPower then x.div (Binary64.powerOfTen k)
  else if x.isZero then x
  else scaleDown (x.div (Binary64.powerOfTen largestPower)) (k - largestPower)
termination_by k
decreasing_by simp [largestPower] at *; omega

/-- The double that a collected number times `10^k` reads as; `none` if it is
out of range. -/
def ofScientific? (collected : Nat) (k : Int) : Option Binary64 :=
  let x := Binary64.ofNat collected
  if k < 0 then some (scaleDown x (-k).toNat)
  else if k ≤ largestPower then x.mul? (Binary64.powerOfTen k.toNat)
  else if x.isZero then some x
  else none

/-- A whole number for a numeral's sign and digits, a double if 64 bits do not
hold it. Minus zero is a double. -/
def ofDigits (negative : Bool) (n : Nat) : Number :=
  if negative then
    if n ≠ 0 ∧ minInt ≤ -(n : Int) then .int (-(n : Int))
    else .float (Binary64.ofNat n).neg
  else .int n

/-! ### Text -/

/-- How doubles are laid out: between these powers of ten the point stands
among the digits, outside of them there is an exponent. -/
structure FloatLayout where
  /-- The greatest number of places before the point. -/
  placesBefore : Int
  /-- The greatest number of zeros between the point and the first digit. -/
  zerosAfter : Int
  /-- Whether an exponent that is not negative has a sign. -/
  plusSign : Bool

/-- Doubles below `10^16` and down to `10^-5` are written positionally, and every
exponent has a sign. -/
def layout : FloatLayout := ⟨16, 4, true⟩

/-- An exponent: its sign and its digits. -/
def printExponent (e : Int) : List Char :=
  if e < 0 then '-' :: Text.decimal e.natAbs
  else if layout.plusSign then '+' :: Text.decimal e.natAbs
  else Text.decimal e.natAbs

/-- Digits `ds`, the last of which counts `10^k`. -/
def printDigits (ds : List Char) (k : Int) : List Char :=
  let point : Int := ds.length + k
  if 0 ≤ k ∧ point ≤ layout.placesBefore then
    ds ++ List.replicate k.toNat '0' ++ ['.', '0']
  else if 0 < point ∧ point ≤ layout.placesBefore then
    ds.take point.toNat ++ '.' :: ds.drop point.toNat
  else if -layout.zerosAfter ≤ point ∧ point ≤ 0 then
    '0' :: '.' :: List.replicate (-point).toNat '0' ++ ds
  else
    let mantissa :=
      match ds with
      | [d] => [d]
      | d :: rest => d :: '.' :: rest
      | [] => []
    mantissa ++ 'e' :: printExponent (point - 1)

/-- The text of a double: its shortest digits, with a point or an exponent. -/
def printFloat (x : Binary64) : List Char :=
  let size :=
    if x.isZero then ['0', '.', '0']
    else
      let (d, k) := x.shortest
      printDigits (Text.decimal d) k
  if x.negative then '-' :: size else size

/-- The text of a number. -/
def print : Number → List Char
  | .int i => if i < 0 then '-' :: Text.decimal i.natAbs else Text.decimal i.natAbs
  | .float x => printFloat x

end Number

end LanguageClient
