import LanguageClient.Proofs.Text.Numeral
import LanguageClient.Text.Blank
import LanguageClient.Text.Split
import Mathlib.Data.List.DropRight

/-!
# `LanguageClient.Proofs.Text.Trim`: the ends of a text

What stands between a text and its ends is dropped by class: blanks by `trim`, others by `strip`.
What is left has no character of the class at its ends (`Trimmed`), and such a text is left as it
is.

* `trimmed_strip`, `strip_eq_self`: these two facts.
* `trim_append_cons`: a character that is no blank keeps what follows it from being trimmed.
-/

set_option autoImplicit false

namespace LanguageClient.Text

variable {p : Char → Bool} {a s : List Char}

/-! ### Blanks -/

/-- A digit is no blank. The blanks of ASCII stand below the digits and the others far above, so the
bounds of the digits decide it. -/
theorem isBlank_of_isDigit {c : Char} (h : c.isDigit = true) : isBlank c = false := by
  have hrange : 48 ≤ c.toNat ∧ c.toNat ≤ 57 := by
    simp only [Char.isDigit, Bool.and_eq_true, decide_eq_true_eq] at h
    exact h
  simp only [isBlank, Bool.or_eq_false_iff, Bool.and_eq_false_iff, decide_eq_false_iff_not,
    beq_eq_false_iff_ne]
  omega

/-- A text that is not blank anywhere starts where it starts. Used for both ends of a numeral, which
has digits only. -/
theorem dropWhile_isBlank {s : List Char} (h : ∀ c ∈ s, isBlank c = false) :
    s.dropWhile isBlank = s := by
  cases s with
  | nil => rfl
  | cons c s => rw [List.dropWhile_cons_of_neg (by rw [h c List.mem_cons_self]; decide)]

/-- A numeral behind a blank is trimmed to the numeral. This is how a length is read back that was
written behind its header name and a blank. -/
theorem trim_decimal (n : Nat) : trim (' ' :: decimal n) = decimal n := by
  have hdigits : ∀ c ∈ decimal n, isBlank c = false := fun c hc =>
    isBlank_of_isDigit (isDigit_of_mem_decimal hc)
  have hreverse : ∀ c ∈ (decimal n).reverse, isBlank c = false := fun c hc =>
    hdigits c (List.mem_reverse.mp hc)
  rw [trim, trimStart, List.dropWhile_cons_of_pos (by decide), dropWhile_isBlank hdigits,
    trimEnd, dropEndWhile, dropWhile_isBlank hreverse, List.reverse_reverse]

/-- Blanks in front make no difference to what is trimmed: what is read behind them is read as if it
stood alone. -/
theorem trim_behind (ha : allBlank a = true) (b : List Char) : trim (a ++ b) = trim b := by
  rw [trim, trimStart, List.dropWhile_append_of_pos (List.all_eq_true.mp ha)]
  rfl

/-- A character that is no blank survives the dropping of blanks in front. Half of `mem_trim`, which
drops at both ends. -/
theorem mem_dropWhile_isBlank {s : List Char} {c : Char} (h : c ∈ s) (hc : isBlank c = false) :
    c ∈ s.dropWhile isBlank := by
  induction s with
  | nil => exact nomatch h
  | cons x s ih =>
    by_cases hx : isBlank x = true
    · rw [List.dropWhile_cons_of_pos hx]
      -- The blank that is dropped is not the character, so the character comes later.
      rcases List.mem_cons.mp h with rfl | h
      · exact nomatch hc.symm.trans hx
      · exact ih h
    · rw [List.dropWhile_cons_of_neg hx]
      exact h

/-- What is not blank is not trimmed. So a text with anything in it but blanks is not trimmed to
nothing. -/
theorem mem_trim {s : List Char} {c : Char} (h : c ∈ s) (hc : isBlank c = false) :
    c ∈ trim s := by
  -- Trimming drops blanks in front, turns the text round, drops again, and turns it back.
  have hstart := List.mem_reverse.mpr (mem_dropWhile_isBlank h hc)
  exact List.mem_reverse.mpr (mem_dropWhile_isBlank hstart hc)

/-- Behind a text that is not blank a word is trimmed to something longer than the word. So a name
with something other than blanks in front of it is not taken for the name. -/
theorem length_trim_behind (word : List Char) {c : Char} (hc : isBlank c = false)
    (ha : allBlank a = false) : (word ++ [c]).length < (trim (a ++ (word ++ [c]))).length := by
  obtain ⟨x, hx, hnot⟩ := List.all_eq_false.mp ha
  have hdrop := List.ne_nil_of_mem (mem_dropWhile_isBlank hx (Bool.eq_false_iff.mpr hnot))
  -- Something is left of what stands in front, so trimming at the start stops before the word.
  have hstart : trimStart (a ++ (word ++ [c])) = a.dropWhile isBlank ++ word ++ [c] := by
    rw [trimStart, List.dropWhile_append, if_neg (by rwa [List.isEmpty_iff]), List.append_assoc]
  -- The word ends with a character that is no blank, so nothing is trimmed at the end.
  have hend : trimEnd (a.dropWhile isBlank ++ word ++ [c]) =
      a.dropWhile isBlank ++ word ++ [c] := by
    rw [trimEnd, dropEndWhile, List.reverse_append, List.reverse_singleton,
      List.singleton_append, List.dropWhile_cons_of_neg (by rw [hc]; exact Bool.false_ne_true),
      List.reverse_cons, List.reverse_reverse]
  have hpositive := List.length_pos_iff.mpr hdrop
  rw [trim, hstart, hend]
  simp only [List.length_append]
  omega

/-! ### Texts without a class at their ends -/

/-- A text has no character of a class at its ends. -/
structure Trimmed (p : Char → Bool) (s : List Char) : Prop where
  first : ∀ c, s.head? = some c → p c = false
  last : ∀ c, s.getLast? = some c → p c = false

/-- What is left after dropping a class does not begin with a character of the class. Turned round,
the same is true of the last character. -/
theorem head?_dropWhile {c : Char} (h : (s.dropWhile p).head? = some c) : p c = false := by
  have hnot := List.head?_dropWhile_not p s
  rwa [h] at hnot

/-- Nothing is dropped from a text that does not begin with the class. -/
theorem dropWhile_eq_self (h : ∀ c, s.head? = some c → p c = false) : s.dropWhile p = s := by
  cases s with
  | nil => rfl
  | cons c s => exact List.dropWhile_cons_of_neg (by simp [h c rfl])

/-- Dropping shortens a text that begins with the class: so a text that is its own trimmed form has
no blank in front. -/
theorem length_dropWhile_lt {c : Char} (h : s.head? = some c) (hc : p c = true) :
    (s.dropWhile p).length < s.length := by
  obtain ⟨rest, rfl⟩ := List.head?_eq_some_iff.mp h
  rw [List.dropWhile_cons_of_pos hc]
  exact Nat.lt_succ_of_le (List.length_dropWhile_le p rest)

/-- What is left of a text has no character of the class at its ends. It is trimmed from the left
first, and what is then taken from the right leaves the first character. -/
theorem trimmed_strip (p : Char → Bool) (s : List Char) : Trimmed p (strip p s) := by
  constructor
  · intro c hc
    -- The part that is left is a prefix of the text from its first character on.
    have hprefix : strip p s <+: s.dropWhile p := List.rdropWhile_prefix p (s.dropWhile p)
    obtain ⟨rest, hrest⟩ := hprefix
    refine head?_dropWhile (s := s) ?_
    rw [← hrest, List.head?_append, hc, Option.some_or]
  · intro c hc
    rw [strip, List.getLast?_reverse] at hc
    exact head?_dropWhile hc

/-- A text with no character of the class at its ends is left as it is. With `trimmed_strip`: a
second stripping does nothing. -/
theorem strip_eq_self (h : Trimmed p s) : strip p s = s := by
  have hlast : ∀ c, s.reverse.head? = some c → p c = false := by
    intro c hc
    exact h.last c (by rwa [List.head?_reverse] at hc)
  rw [strip, dropWhile_eq_self h.first, dropWhile_eq_self hlast, List.reverse_reverse]

/-- A text with no blank at its ends is not blank unless it is empty. So of a trimmed text "not
empty" and "not blank" say the same. -/
theorem allBlank_of_trimmed (h : Trimmed isBlank s) (hne : s ≠ []) : allBlank s = false := by
  cases s with
  | nil => exact absurd rfl hne
  | cons c s => simp [allBlank, h.first c rfl]

/-- Stripping never makes a text longer. -/
theorem length_strip_le (p : Char → Bool) (s : List Char) : (strip p s).length ≤ s.length :=
  (List.rdropWhile_prefix p (s.dropWhile p)).length_le.trans (List.length_dropWhile_le p s)

/-- A character that is no blank keeps what follows it from being trimmed. What stands in front of
it is trimmed at its start only. -/
theorem trim_append_cons (a : List Char) {c : Char} (hc : isBlank c = false) {b : List Char}
    (hb : ∀ d, (c :: b).getLast? = some d → isBlank d = false) :
    trim (a ++ c :: b) = trimStart a ++ c :: b := by
  have hfirst : (c :: b).dropWhile isBlank = c :: b :=
    dropWhile_eq_self fun d hd => by cases hd; exact hc
  have hstart : trimStart (a ++ c :: b) = trimStart a ++ c :: b := by
    unfold trimStart
    rw [List.dropWhile_append, hfirst]
    -- Either all that stands in front is dropped, or some of it is left in front of the character.
    split
    · rename_i hempty
      rw [List.isEmpty_iff.mp hempty, List.nil_append]
    · rfl
  have hlast : ∀ d, (trimStart a ++ c :: b).reverse.head? = some d → isBlank d = false := by
    intro d hd
    rw [List.head?_reverse, List.getLast?_append_of_ne_nil _ (List.cons_ne_nil c b)] at hd
    exact hb d hd
  rw [trim, hstart, trimEnd, dropEndWhile, dropWhile_eq_self hlast, List.reverse_reverse]

end LanguageClient.Text
