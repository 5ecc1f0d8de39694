/-!
# `LanguageClient.Json.Binary64`: double-precision numbers, exactly

A finite double is `m · 2^e` with a 53-bit whole number `m`. All arithmetic
here is on whole numbers: an operation takes the exact quotient and rounds it
once, to the nearest double, a tie to the even one.

- `ofRatio?`: the double nearest to a quotient, unless it overflows.
- `mul?`, `div`: one rounding each.
- `shortest`: the fewest decimal digits that lie nearer to this double than to
  any other, and the power of ten they are scaled by.
-/

set_option autoImplicit false

namespace LanguageClient

/-- A finite double: `significand · 2^exponent`, negated if `negative`. Zero
has a sign too. The significand is below `2^53`, and it is at least `2^52`
unless the exponent is the least one. -/
structure Binary64 where
  negative : Bool
  significand : Nat
  exponent : Int
  deriving DecidableEq, Repr

namespace Binary64

/-- The exponent of the smallest steps between doubles. -/
def leastExponent : Int := -1074

/-- The exponent of the largest steps between doubles. -/
def greatestExponent : Int := 971

/-- Zero. -/
def zero : Binary64 := ⟨false, 0, leastExponent⟩

/-- Whether the value is zero, of either sign. -/
def isZero (x : Binary64) : Bool := x.significand == 0

/-- The same size with the other sign. -/
def neg (x : Binary64) : Binary64 := { x with negative := !x.negative }

/-- The quotient rounded to the nearest whole number, a tie to the even one. -/
def roundQuotient (num den : Nat) : Nat :=
  let q := num / den
  let r := num % den
  if 2 * r < den then q
  else if den < 2 * r then q + 1
  else if q % 2 == 0 then q
  else q + 1

/-- The fraction `num / den` divided by `2^e`, as numerator and denominator. -/
def scaled (num den : Nat) (e : Int) : Nat × Nat :=
  if 0 ≤ e then (num, den * Nat.pow 2 e.toNat) else (num * Nat.pow 2 (-e).toNat, den)

/-- The exponent at which `num / den` has a significand of 53 bits, or the
least exponent if that one is below it. -/
def exponentFor (num den : Nat) : Int :=
  let guess : Int := (num.log2 : Int) - (den.log2 : Int) - 52
  let (n, d) := scaled num den guess
  let e := if n / d < Nat.pow 2 52 then guess - 1 else guess
  max e leastExponent

/-- The double nearest to `num / den`; `none` if it is too large for a finite
one. -/
def ofRatio? (num den : Nat) : Option Binary64 :=
  if num == 0 then some zero
  else
    let e := exponentFor num den
    let (n, d) := scaled num den e
    let m := roundQuotient n d
    let (m, e) := if m == Nat.pow 2 53 then (Nat.pow 2 52, e + 1) else (m, e)
    if greatestExponent < e then none else some ⟨false, m, e⟩

/-- The size of a double as a fraction. -/
def ratio (x : Binary64) : Nat × Nat :=
  if 0 ≤ x.exponent then (x.significand * Nat.pow 2 x.exponent.toNat, 1)
  else (x.significand, Nat.pow 2 (-x.exponent).toNat)

/-- The rounded product; `none` on overflow. -/
def mul? (x y : Binary64) : Option Binary64 :=
  let (a, b) := x.ratio
  let (c, d) := y.ratio
  (ofRatio? (a * c) (b * d)).map fun z => { z with negative := x.negative != y.negative }

/-- The rounded quotient by a number that is not zero. A quotient too large for
a double does not arise here and reads as zero. -/
def div (x y : Binary64) : Binary64 :=
  let (a, b) := x.ratio
  let (c, d) := y.ratio
  let z := (ofRatio? (a * d) (b * c)).getD zero
  { z with negative := x.negative != y.negative }

/-- The double nearest to a whole number of at most 64 bits. -/
def ofNat (n : Nat) : Binary64 := (ofRatio? n 1).getD zero

/-- The double nearest to a power of ten, at most `10^308`. -/
def powerOfTen (k : Nat) : Binary64 := (ofRatio? (Nat.pow 10 k) 1).getD zero

/-! ### The shortest decimal form -/

/-- Twice the lower and twice the upper end of the interval of numbers that
round to `m · 2^e`, in units of `2^(e-1)`; the distance downwards halves at a
power of two. All ends are given in units of `2^(e-2)`. -/
def roundingInterval (x : Binary64) : Nat × Nat :=
  let m := x.significand
  let low := if m == Nat.pow 2 52 ∧ leastExponent < x.exponent then 4 * m - 1 else 4 * m - 2
  (low, 4 * m + 2)

/-- Whether `d · 10^k` rounds to `x`. The ends of the interval belong to it if
the significand is even. -/
def roundsTo (x : Binary64) (d : Nat) (k : Int) : Bool :=
  let (low, high) := x.roundingInterval
  let e := x.exponent - 2
  -- Compare `d · 10^k` with `low · 2^e` and `high · 2^e` over a common scale.
  let left := d * Nat.pow 10 k.toNat * Nat.pow 2 (-e).toNat
  let scale := Nat.pow 10 (-k).toNat * Nat.pow 2 e.toNat
  if x.significand % 2 == 0 then low * scale ≤ left && left ≤ high * scale
  else low * scale < left && left < high * scale

/-- The decimals with `k` as their last place that round to `x`: the neighbours
of its value below and above, the nearer one first. -/
def decimalAt? (x : Binary64) (k : Int) : Option Nat :=
  let (num, den) := x.ratio
  let n := num * Nat.pow 10 (-k).toNat
  let d := den * Nat.pow 10 k.toNat
  let below := n / d
  let nearer := roundQuotient n d
  let other := if nearer == below then below + 1 else below
  if x.roundsTo nearer k then some nearer
  else if x.roundsTo other k then some other
  else none

/-- Try the places from `k` downwards, at most `fuel` of them. -/
def shortestFrom (x : Binary64) : Nat → Int → Nat × Int
  | 0, k => ((x.decimalAt? k).getD 0, k)
  | fuel + 1, k =>
    match x.decimalAt? k with
    | some d => (d, k)
    | none => shortestFrom x fuel (k - 1)

/-- The fewest digits that round to the value, which must not be zero, and the
power of ten of the last one. The first place tried is above the leading digit
of the value; 18 places further down every double is told apart. -/
def shortest (x : Binary64) : Nat × Int :=
  let bits : Int := (x.significand.log2 : Int) + x.exponent
  -- 30103 / 100000 is just above the logarithm of two.
  x.shortestFrom 20 (bits * 30103 / 100000 + 1)

end Binary64

end LanguageClient
