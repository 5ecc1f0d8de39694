import LanguageClient.Json.Parser
import LanguageClient.Json.Printer
import LanguageClient.Proofs.Text.Numeral
import Mathlib.Data.List.TakeDrop

/-!
# `LanguageClient.Proofs.Json.Token`: strings and whole numbers are read back

A string is written character by character, and each character, escaped or not, is read back in
one step (`readStringFrom_escape`). So the fuel of the reader lasts as long as there are
characters.

A whole number is written as its digits. They are read back if 64 bits hold them, and if nothing
behind them goes on with the number (`Closes`).

* `readString_escaped`: a string is read back, whatever is behind it.
* `readNumber_decimal`: so are the digits of a number.
-/

set_option autoImplicit false

namespace LanguageClient

namespace Text

/-- The hexadecimal digit of a number has that value. A control character is written with two of
them. -/
theorem hexValue?_hexDigit {n : Nat} (h : n < 16) : hexValue? (hexDigit n) = some n := by
  -- The digits are sixteen, and each is looked up.
  revert h
  revert n
  decide

/-- A numeral has no leading zero, unless it is zero. The reader takes a zero in front for the whole
number, and would leave the other digits. -/
theorem head?_decimal_ne_zero {n : Nat} (h : n ≠ 0) : (decimal n).head? ≠ some '0' := by
  induction n using Nat.strongRecOn with
  | ind n ih =>
    unfold decimal
    by_cases hlt : n < 10
    · rw [Nat.toDigits_of_lt_base hlt]
      revert h
      clear ih
      revert n
      decide
    · -- The first digit is that of the number without its last digit.
      have hfirst := ih (n / 10) (by omega) (by omega)
      rw [Nat.toDigits_of_base_le (by decide) (by omega), List.head?_append]
      cases hhead : (Nat.toDigits 10 (n / 10)).head? with
      | none => exact absurd (List.head?_eq_none_iff.mp hhead) Nat.toDigits_ne_nil
      | some d =>
        intro hzero
        exact hfirst (hhead.trans hzero)

end Text

namespace Json

/-! ### Strings -/

/-- How a character is written: by a letter behind a backslash, by its number, or as it is. The
reader has a branch for each, and the facts beside each case decide which one it takes. -/
theorem escape_cases (c : Char) :
    (∃ e, escape c = ['\\', e] ∧ e ≠ 'u' ∧ simpleEscape? e = some c) ∨
      (c.toNat < 0x20 ∧
        escape c = ['\\', 'u', '0', '0', Text.hexDigit (c.toNat / 16),
          Text.hexDigit (c.toNat % 16)]) ∨
      (escape c = [c] ∧ c ≠ '"' ∧ c ≠ '\\' ∧ 0x20 ≤ c.toNat) := by
  -- Seven characters have a letter of their own. They are asked for one after the other.
  unfold escape
  split
  · subst c
    exact .inl ⟨'"', by decide⟩
  split
  · subst c
    exact .inl ⟨'\\', by decide⟩
  split
  · subst c
    exact .inl ⟨'b', by decide⟩
  split
  · subst c
    exact .inl ⟨'f', by decide⟩
  split
  · subst c
    exact .inl ⟨'n', by decide⟩
  split
  · subst c
    exact .inl ⟨'r', by decide⟩
  split
  · subst c
    exact .inl ⟨'t', by decide⟩
  split
  · -- The other control characters are written by number.
    rename_i hcontrol
    exact .inr (.inl ⟨hcontrol, rfl⟩)
  · -- What is left needs no escape: it is neither a quote nor a backslash, nor a control character.
    rename_i hquote hbackslash _ _ _ _ _ hcontrol
    exact .inr (.inr ⟨rfl, hquote, hbackslash, by omega⟩)

/-- A control character is read back from its number. It has two hexadecimal digits of its own,
behind two zeros. -/
theorem readUnicode_control {c : Char} (h : c.toNat < 0x20) (s : List Char) :
    readUnicode .keep
      ('0' :: '0' :: Text.hexDigit (c.toNat / 16) :: Text.hexDigit (c.toNat % 16) :: s) =
        .ok (c, s) := by
  have hhigh := Text.hexValue?_hexDigit (n := c.toNat / 16) (by omega)
  have hlow := Text.hexValue?_hexDigit (n := c.toNat % 16) (by omega)
  have hzero : Text.hexValue? '0' = some 0 := by decide
  have hnumber : c.toNat / 16 * 16 + c.toNat % 16 = c.toNat := by omega
  -- Surrogates would be read in pairs, but they are far from control characters.
  have hfirst : isHighSurrogate c.toNat = false := by
    simp [isHighSurrogate]
    omega
  have hsecond : isLowSurrogate c.toNat = false := by
    simp [isLowSurrogate]
    omega
  simp [readUnicode, readHex4, hzero, hhigh, hlow, hnumber, hfirst, hsecond, bind, Except.bind,
    pure, Except.pure]

/-- A character is read back in one step. It is the step of the induction over a string, and it
hides in which way the character was written. -/
theorem readStringFrom_escape (fuel : Nat) (read : List Char) (c : Char) (s : List Char) :
    readStringFrom .keep (fuel + 1) read (escape c ++ s) =
      readStringFrom .keep fuel (c :: read) s := by
  rcases escape_cases c with ⟨e, hescape, hother, hsimple⟩ | ⟨hcontrol, hescape⟩ |
    ⟨hescape, hquote, hbackslash, hplain⟩
  · -- The letter is not the one that announces the number of a character.
    have hread : readEscape .keep (e :: s) = .ok (c, s) := by
      unfold readEscape
      split
      · rename_i heq
        cases heq
      · rename_i heq
        cases heq
        exact absurd rfl hother
      · rename_i heq
        cases heq
        simp [hsimple]
    simp [hescape, readStringFrom, hread, bind, Except.bind]
  · -- A control character is written by its number, as `readUnicode_control` reads it.
    simp [hescape, readStringFrom, readEscape, readUnicode_control hcontrol, bind, Except.bind]
  · -- Any other character is taken as it is: it neither ends the string nor escapes anything.
    have hnot : ¬ c.toNat < 0x20 := by omega
    simp [hescape, readStringFrom, hquote, hbackslash, hnot]

/-- Every character takes some text. So the characters of a string are no more than those of its
text, which is what the fuel of the reader is counted by. -/
theorem escape_ne_nil (c : Char) : escape c ≠ [] := by
  rcases escape_cases c with ⟨e, hescape, -⟩ | ⟨-, hescape⟩ | ⟨hescape, -⟩ <;> simp [hescape]

/-- A string is no longer than its text. A reader with fuel for each character of the text has fuel
for each character of the string. -/
theorem length_le_escaped (cs : List Char) : cs.length ≤ (cs.flatMap escape).length := by
  induction cs with
  | nil => simp
  | cons c cs ih =>
    have hone := List.length_pos_iff.mpr (escape_ne_nil c)
    simp only [List.length_cons, List.flatMap_cons, List.length_append]
    omega

/-- The characters of a string are read back up to the closing quote. The fuel is for one step per
character and one for the quote. -/
theorem readStringFrom_escaped (cs : List Char) {fuel : Nat} (hfuel : cs.length < fuel)
    (read rest : List Char) :
    readStringFrom .keep fuel read (cs.flatMap escape ++ '"' :: rest) =
      .ok (read.reverse ++ cs, rest) := by
  induction cs generalizing fuel read with
  | nil =>
    obtain ⟨fuel, rfl⟩ := Nat.exists_eq_add_of_lt hfuel
    simp [readStringFrom]
  | cons c cs ih =>
    obtain ⟨fuel, rfl⟩ : ∃ more, fuel = more + 1 := ⟨fuel - 1, by omega⟩
    -- However long the escape of `c` is, reading it is one step.
    have hmore : cs.length < fuel := by simpa using hfuel
    rw [List.flatMap_cons, List.append_assoc, readStringFrom_escape, ih hmore]
    simp

/-- A string is read back behind its opening quote. -/
theorem readString_escaped (s : String) (rest : List Char) :
    readString .keep (s.toList.flatMap escape ++ '"' :: rest) = .ok (s, rest) := by
  have hfuel : s.toList.length <
      (s.toList.flatMap escape ++ '"' :: rest).length + 1 := by
    have hlength := length_le_escaped s.toList
    simp only [List.length_append, List.length_cons]
    omega
  simp only [readString, readStringFrom_escaped _ hfuel, bind, Except.bind, pure, Except.pure]
  simp

/-! ### Numbers -/

/-- What may stand behind a value: nothing, or what separates or closes. -/
def Closes (rest : List Char) : Prop :=
  ∀ c ∈ rest.head?, c = ',' ∨ c = ']' ∨ c = '\x7d'

/-- Nothing behind a value closes it: this is how a whole text ends. -/
theorem closes_nil : Closes [] := by
  intro c hc
  simp at hc

/-- A separator or a bracket closes the value in front of it, whatever comes after. The printed
items and fields begin in this way. -/
theorem closes_cons {c : Char} (h : c = ',' ∨ c = ']' ∨ c = '\x7d') (rest : List Char) :
    Closes (c :: rest) := by
  intro d hd
  obtain rfl : c = d := by simpa using hd
  exact h

variable {rest : List Char}

/-- The digits of a number are taken together, and no more than these, since what closes a value is
no digit. -/
theorem spanDigits_decimal (h : Closes rest) (n : Nat) :
    spanDigits (Text.decimal n ++ rest) = (Text.decimal n, rest) := by
  have hdigits : ∀ c ∈ Text.decimal n, c.isDigit = true := fun c => Text.isDigit_of_mem_decimal
  -- What may stand behind a value is no digit, so the digits end where the number does.
  have hstops : rest.takeWhile Char.isDigit = [] ∧ rest.dropWhile Char.isDigit = rest := by
    cases rest with
    | nil => simp
    | cons c rest =>
      have hnot : c.isDigit = false := by
        rcases h c (by simp) with rfl | rfl | rfl <;> decide
      simp [hnot]
  unfold spanDigits
  rw [List.span_eq_takeWhile_dropWhile, List.takeWhile_append_of_pos hdigits,
    List.dropWhile_append_of_pos hdigits, hstops.1, hstops.2, List.append_nil]

/-- The digits of a number are read back, and there is at least one, as the grammar demands. -/
theorem readDigits_decimal (h : Closes rest) (n : Nat) :
    readDigits .keep (Text.decimal n ++ rest) = .ok (Text.decimal n, rest) := by
  unfold readDigits
  rw [spanDigits_decimal h]
  split
  · rename_i heq
    exact absurd (Prod.mk.inj heq).1 (Text.decimal_ne_nil n)
  · rfl

/-- The whole part of a number is read back. The grammar forbids a leading zero, so this is where it
matters that `decimal` writes none. -/
theorem readWhole_decimal (h : Closes rest) (n : Nat) :
    readWhole .keep (Text.decimal n ++ rest) = .ok (Text.decimal n, rest) := by
  simp only [readWhole, readDigits_decimal h, bind, Except.bind]
  split
  · rename_i heq
    by_cases hzero : n = 0
    · -- Zero itself is written as one digit.
      subst hzero
      have hsingle : Text.decimal 0 = ['0'] := by decide
      rw [hsingle] at heq
      cases heq
    · -- The first digit would be a zero with others behind it, which `decimal` does not write.
      have hhead := Text.head?_decimal_ne_zero hzero
      rw [heq] at hhead
      exact absurd rfl hhead
  · rfl

/-- What closes a value is no decimal point, so no fraction is read. -/
theorem readFraction_of_closes (h : Closes rest) : readFraction .keep rest = .ok (none, rest) := by
  unfold readFraction
  split
  · have hpoint := h '.' (by simp)
    exact absurd hpoint (by decide)
  · rfl

/-- What closes a value is no `e`, so no exponent is read. -/
theorem readExponent_of_closes (h : Closes rest) : readExponent .keep rest = .ok (none, rest) := by
  cases rest with
  | nil => rfl
  | cons c rest =>
    have hnot : ¬ (c = 'e' ∨ c = 'E') := by
      rcases h c (by simp) with rfl | rfl | rfl <;> decide
    simp only [readExponent, if_neg hnot]

/-- Digits are collected as long as the number fits. With this the reader takes the digits of a
number that 64 bits hold without one left over. -/
theorem collect_eq (ds : List Char) {n : Nat}
    (h : ds.foldl (fun n c => 10 * n + Text.digitValue c) n ≤ Text.maxWord64) :
    collect n ds = (ds.foldl (fun n c => 10 * n + Text.digitValue c) n, []) := by
  -- The number only grows, so a digit that does not fit now does not fit at the end either.
  have hgrows : ∀ (ds : List Char) (n : Nat),
      n ≤ ds.foldl (fun n c => 10 * n + Text.digitValue c) n := by
    intro ds
    induction ds with
    | nil => exact fun n => Nat.le_refl n
    | cons d ds ih =>
      intro n
      have hnext := ih (10 * n + Text.digitValue d)
      simp only [List.foldl_cons]
      omega
  induction ds generalizing n with
  | nil => rfl
  | cons d ds ih =>
    have hfits : 10 * n + Text.digitValue d ≤ Text.maxWord64 := Nat.le_trans (hgrows ds _) h
    simp only [collect, if_pos hfits, List.foldl_cons]
    exact ih h

/-- A numeral of digits alone, within 64 bits, has the whole number as its value and not a float. -/
theorem value?_decimal {n : Nat} (h : n ≤ Text.maxWord64) (negative : Bool) :
    Numeral.value? ⟨negative, Text.decimal n, none, none⟩ = some (.ofDigits negative n) := by
  have hvalue : (Text.decimal n).foldl (fun n c => 10 * n + Text.digitValue c) 0 = n :=
    Text.decimalValue_decimal n
  have hcollect : collect 0 (Text.decimal n) = (n, []) := by
    rw [collect_eq _ (by rw [hvalue]; exact h), hvalue]
  simp [Numeral.value?, hcollect]

/-- The digits of a number are read back if 64 bits hold it. Beyond that the reader makes a float of
them, which is another value. -/
theorem readNumber_decimal (hrest : Closes rest) {n : Nat} (h : n ≤ Text.maxWord64)
    (negative : Bool) :
    readNumber .keep negative (Text.decimal n ++ rest) = .ok (.ofDigits negative n, rest) := by
  simp [readNumber, readWhole_decimal hrest, readFraction_of_closes hrest,
    readExponent_of_closes hrest, value?_decimal h, bind, Except.bind, pure, Except.pure]

end Json

end LanguageClient
