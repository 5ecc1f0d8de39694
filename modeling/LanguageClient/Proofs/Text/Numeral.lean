import LanguageClient.Text.Numeral
import Mathlib.Data.List.Induction
import Mathlib.Data.Nat.Digits.Defs

/-!
# `LanguageClient.Proofs.Text.Numeral`: decimal numerals

`decimal` writes a number and `readUnsigned` reads one. A number that the field
can hold is read back (`readUnsigned_decimal`), and what is written is made of
digits alone (`isDigit_of_mem_decimal`), so it holds no sign, blank or separator.
What else is read is a numeral too (`IsNumeral`), with a plus sign or with leading
zeros, and every numeral is read whose number the field can hold
(`readUnsigned_eq_some_iff`).
-/

set_option autoImplicit false

namespace LanguageClient.Text

/-- A numeral that is written has digits only; so no sign, blank or separator is found in it. -/
theorem isDigit_of_mem_decimal {n : Nat} {c : Char} (h : c ∈ decimal n) : c.isDigit = true :=
  Nat.isDigit_of_mem_toDigits (by decide) (by decide) h

/-- A numeral has a digit, also that of zero. -/
theorem decimal_ne_nil (n : Nat) : decimal n ≠ [] := Nat.toDigits_ne_nil

/-- Digits are digits without a sign: the reader takes a plus sign off, and there is none to take
off. -/
theorem unsignedDigits_decimal (n : Nat) : unsignedDigits (decimal n) = decimal n := by
  unfold unsignedDigits
  split
  · rename_i ds h
    have hsign : '+'.isDigit = true := isDigit_of_mem_decimal (h ▸ List.mem_cons_self)
    exact absurd hsign (by decide)
  · rfl

/-- The digits of a number make the number. The library proves this of its own reader, which is the
same fold. -/
theorem decimalValue_decimal (n : Nat) : decimalValue (decimal n) = n := by
  have h : Nat.ofDigitChars 10 (decimal n) 0 = n := Nat.ofDigitChars_ten_toDigits
  rw [Nat.ofDigitChars_eq_foldl] at h
  exact h

/-- A number that fits is read back from its numeral. -/
theorem readUnsigned_decimal {n max : Nat} (h : n ≤ max) :
    readUnsigned max (decimal n) = some n := by
  have hdigits : (decimal n).all Char.isDigit = true :=
    List.all_eq_true.mpr fun _ hc => isDigit_of_mem_decimal hc
  simp only [readUnsigned, unsignedDigits_decimal, decimalValue_decimal]
  rw [if_pos ⟨decimal_ne_nil n, hdigits, h⟩]

/-! ### What is read -/

/-- A text is a numeral of a number: decimal digits that make it, at least one, perhaps behind a
plus sign. -/
def IsNumeral (s : List Char) (n : Nat) : Prop :=
  ∃ digits, (s = digits ∨ s = '+' :: digits) ∧ digits ≠ [] ∧ (∀ c ∈ digits, c.isDigit = true) ∧
    Nat.ofDigits 10 (digits.reverse.map digitValue) = n

/-- The value of digits in the sense of the library, least digit first. It makes leading zeros a
matter of the library: no case of its own is needed for them. -/
theorem decimalValue_eq_ofDigits (digits : List Char) :
    decimalValue digits = Nat.ofDigits 10 (digits.reverse.map digitValue) := by
  induction digits using List.reverseRecOn with
  | nil => rfl
  | append_singleton digits c ih =>
    have hlast : decimalValue (digits ++ [c]) = 10 * decimalValue digits + digitValue c := by
      simp [decimalValue]
    rw [hlast, ih, List.reverse_append, List.reverse_singleton, List.singleton_append,
      List.map_cons, Nat.ofDigits_cons]
    omega

/-- The digits of a numeral are what is left when a plus sign is taken off. -/
theorem unsignedDigits_of_digits {s digits : List Char} (h : s = digits ∨ s = '+' :: digits)
    (hdigits : ∀ c ∈ digits, c.isDigit = true) : unsignedDigits s = digits := by
  rcases h with rfl | rfl
  · unfold unsignedDigits
    split
    · rename_i ds
      exact absurd (hdigits '+' List.mem_cons_self) (by decide)
    · rfl
  · rfl

/-- What the reader takes off is a plus sign or nothing. -/
theorem eq_unsignedDigits_or (s : List Char) :
    s = unsignedDigits s ∨ s = '+' :: unsignedDigits s := by
  unfold unsignedDigits
  split
  · exact .inr rfl
  · exact .inl rfl

/-- Exactly the numerals are read whose numbers the field can hold. All that is said about reading a
number rests on this equivalence. -/
theorem readUnsigned_eq_some_iff {max n : Nat} {s : List Char} :
    readUnsigned max s = some n ↔ IsNumeral s n ∧ n ≤ max := by
  -- A numeral is read if it has a digit, nothing but digits, and a value within the field.
  have hread : readUnsigned max s =
      if unsignedDigits s ≠ [] ∧ (unsignedDigits s).all Char.isDigit ∧
        decimalValue (unsignedDigits s) ≤ max
      then some (decimalValue (unsignedDigits s)) else none := rfl
  rw [hread]
  constructor
  · intro h
    split at h
    · rename_i hnumeral
      obtain ⟨hne, hall, hmax⟩ := hnumeral
      obtain rfl := Option.some.inj h
      refine ⟨⟨unsignedDigits s, eq_unsignedDigits_or s, hne, List.all_eq_true.mp hall, ?_⟩, hmax⟩
      rw [decimalValue_eq_ofDigits]
    · cases h
  · rintro ⟨⟨digits, hsign, hne, hall, rfl⟩, hmax⟩
    rw [← decimalValue_eq_ofDigits] at hmax ⊢
    rw [unsignedDigits_of_digits hsign hall, if_pos ⟨hne, List.all_eq_true.mpr hall, hmax⟩]

/-- A numeral holds digits, and perhaps a sign. So a text with any other character in it is none. -/
theorem isDigit_of_readUnsigned {max n : Nat} {s : List Char} (h : readUnsigned max s = some n)
    {c : Char} (hc : c ∈ s) : c = '+' ∨ c.isDigit = true := by
  obtain ⟨⟨digits, hsign, -, hall, -⟩, -⟩ := readUnsigned_eq_some_iff.mp h
  rcases hsign with rfl | rfl
  · exact .inr (hall c hc)
  · rcases List.mem_cons.mp hc with rfl | hc
    · exact .inl rfl
    · exact .inr (hall c hc)

/-- What is read fits its field. -/
theorem le_of_readUnsigned {max n : Nat} {s : List Char} (h : readUnsigned max s = some n) :
    n ≤ max :=
  (readUnsigned_eq_some_iff.mp h).2

end LanguageClient.Text
