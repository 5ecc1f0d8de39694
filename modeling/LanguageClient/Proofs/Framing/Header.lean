import LanguageClient.Framing
import LanguageClient.Proofs.Text.Lines
import LanguageClient.Proofs.Text.Numeral
import LanguageClient.Proofs.Text.Split

/-!
# `LanguageClient.Proofs.Framing.Header`: the length that a header block names

A header block is read line by line. A line names the length if the word in front of its first
colon is `content-length`, in capital or small letters, with or without blanks around it. The
first line that does so decides (`Decides`), and what stands behind its colon is read as a
numeral. `Declares` is the whole grammar: the length, or which of the three faults it is.

* `lengthValue?_eq_some_iff`: the lines that name a length.
* `findSome?_lengthValue?_eq_some_iff`: the line that decides.
* `declared`: a header block is read as the grammar says, and no other line counts.
-/

set_option autoImplicit false

namespace LanguageClient.Framing

open Text

variable {header line value : List Char}

/-! ### The grammar -/

/-- A line names the length, and this is the value that it gives. -/
def Names (line value : List Char) : Prop :=
  ∃ name rest, line = name ++ ':' :: rest ∧ ':' ∉ name ∧
    (trim name).map Char.toLower = "content-length".toList ∧ trim rest = value

/-- The first line of a header block that names the length gives this value. -/
def Decides (header value : List Char) : Prop :=
  ∃ before line after, Lines header (before ++ line :: after) ∧
    (∀ l ∈ before, ∀ v, ¬Names l v) ∧ Names line value

/-- What a header block says about the length of the body, in bytes:

- `missing`: no line names the length;
- `length`: it is a number of at most 16 MiB;
- `tooLarge`: it is a larger one, which 64 bits can still hold;
- `invalid`: it is no such number. -/
inductive Declares (header : List Char) : Except FramingError Nat → Prop where
  | missing {lines : List (List Char)} (divided : Lines header lines)
      (silent : ∀ line ∈ lines, ∀ value, ¬Names line value) :
      Declares header (.error .missingLength)
  | length {value : List Char} {n : Nat} (decides : Decides header value)
      (numeral : IsNumeral value n) (small : n ≤ 16777216) : Declares header (.ok n)
  | tooLarge {value : List Char} {n : Nat} (decides : Decides header value)
      (numeral : IsNumeral value n) (large : 16777216 < n) (fits : n < 2 ^ 64) :
      Declares header (.error (.messageTooLarge n))
  | invalid {value : List Char} (decides : Decides header value)
      (unread : ∀ n, IsNumeral value n → 2 ^ 64 ≤ n) :
      Declares header (.error (.invalidLength (String.ofList value)))

/-! ### What is found -/

/-- What is taken from a line, if anything, is the value of a line that names the length. The first
colon counts, so the value may have colons of its own. -/
theorem lengthValue?_eq_some_iff : lengthValue? line = some value ↔ Names line value := by
  unfold lengthValue?
  constructor
  · intro h
    split at h
    · rename_i name rest hsplit
      obtain ⟨hline, hcolon⟩ := splitFirst?_eq_some_iff.mp hsplit
      split at h
      · rename_i hname
        exact ⟨name, rest, hline, hcolon, hname, Option.some.inj h⟩
      · cases h
    · cases h
  · rintro ⟨name, rest, hline, hcolon, hname, rfl⟩
    rw [splitFirst?_eq_some_iff.mpr ⟨hline, hcolon⟩]
    exact if_pos hname

/-- Nothing is taken from the other lines. -/
theorem lengthValue?_eq_none_iff : lengthValue? line = none ↔ ∀ value, ¬Names line value := by
  simp only [Option.eq_none_iff_forall_ne_some, ne_eq, lengthValue?_eq_some_iff]

/-- The line that decides is the first one that names the length. Later lines may name other
lengths, or nonsense, and are not looked at. -/
theorem findSome?_lengthValue?_eq_some_iff :
    (splitCrLf header).findSome? lengthValue? = some value ↔ Decides header value := by
  rw [List.findSome?_eq_some_iff]
  simp only [splitCrLf_eq_iff, lengthValue?_eq_some_iff, lengthValue?_eq_none_iff]
  constructor
  · rintro ⟨before, line, after, hlines, hnames, hbefore⟩
    exact ⟨before, line, after, hlines, hbefore, hnames⟩
  · rintro ⟨before, line, after, hlines, hbefore, hnames⟩
    exact ⟨before, line, after, hlines, hnames, hbefore⟩

/-- What is made of the value that decides: it is read as a number, and the number is compared with
the limit. -/
theorem contentLength_of_decides (h : Decides header value) :
    contentLength header =
      match readUnsigned maxWord64 value with
      | none => .error (.invalidLength (String.ofList value))
      | some n => if maxSize < n then .error (.messageTooLarge n) else .ok n := by
  have hfound := findSome?_lengthValue?_eq_some_iff.mpr h
  cases hread : readUnsigned maxWord64 value <;> simp only [contentLength, hfound, hread]

/-- Without a line that names the length, the length is missing. -/
theorem contentLength_of_silent {lines : List (List Char)} (hlines : Lines header lines)
    (h : ∀ line ∈ lines, ∀ value, ¬Names line value) :
    contentLength header = .error .missingLength := by
  have hnone : (splitCrLf header).findSome? lengthValue? = none := by
    rw [splitCrLf_of_lines hlines, List.findSome?_eq_none_iff]
    intro line hmem
    exact lengthValue?_eq_none_iff.mpr (h line hmem)
  rw [contentLength, hnone]

/-! ### What is read -/

/-- The field has 64 bits, so a larger numeral is not read. It is then reported as no number, and
not as one that is too large. -/
theorem readUnsigned_maxWord64 {n : Nat} :
    readUnsigned maxWord64 value = some n ↔ IsNumeral value n ∧ n < 2 ^ 64 := by
  have hbound : n ≤ maxWord64 ↔ n < 2 ^ 64 := by
    simp only [maxWord64, Nat.pow_eq]
    omega
  rw [readUnsigned_eq_some_iff, hbound]

/-- A header block is read as the grammar says. The cases follow the reader: whether there is a
line, whether its value is a number, and whether that is within the limit. -/
theorem declares_contentLength (header : List Char) : Declares header (contentLength header) := by
  cases hvalue : (splitCrLf header).findSome? lengthValue? with
  | none =>
    have hsilent := List.findSome?_eq_none_iff.mp hvalue
    have hnames : ∀ line ∈ splitCrLf header, ∀ value, ¬Names line value := by
      intro line hmem
      exact lengthValue?_eq_none_iff.mp (hsilent line hmem)
    rw [contentLength_of_silent (lines_splitCrLf header) hnames]
    exact .missing (lines_splitCrLf header) hnames
  | some value =>
    have hdecides := findSome?_lengthValue?_eq_some_iff.mp hvalue
    rw [contentLength_of_decides hdecides]
    cases hread : readUnsigned maxWord64 value with
    | none =>
      -- Not read is not the same as no numeral: it may be one that 64 bits do not hold.
      refine .invalid hdecides ?_
      intro n hnumeral
      by_contra hfits
      have hsome := readUnsigned_maxWord64.mpr ⟨hnumeral, Nat.lt_of_not_le hfits⟩
      simp [hread] at hsome
    | some n =>
      obtain ⟨hnumeral, hfits⟩ := readUnsigned_maxWord64.mp hread
      dsimp only
      split
      · rename_i hlarge
        exact .tooLarge hdecides hnumeral hlarge hfits
      · rename_i hsmall
        exact .length hdecides hnumeral (Nat.le_of_not_lt hsmall)

/-- The grammar leaves no choice: whatever length, or fault, it gives to a header block is the one
that is read. One case for each rule, which says how the deciding line is read. -/
theorem contentLength_of_declares {result : Except FramingError Nat}
    (h : Declares header result) : contentLength header = result := by
  cases h with
  | missing divided silent => exact contentLength_of_silent divided silent
  | @length value n decides numeral small =>
    have hread := readUnsigned_maxWord64.mpr ⟨numeral, by omega⟩
    have hsize : ¬maxSize < n := Nat.not_lt_of_le small
    rw [contentLength_of_decides decides, hread]
    exact if_neg hsize
  | @tooLarge value n decides numeral large fits =>
    -- It is a number that can be read, and more than a message may have.
    have hread := readUnsigned_maxWord64.mpr ⟨numeral, fits⟩
    have hsize : maxSize < n := large
    rw [contentLength_of_decides decides, hread]
    exact if_pos hsize
  | @invalid value decides unread =>
    -- If a number were read, it would be one that the case excludes.
    have hread : readUnsigned maxWord64 value = none := by
      rw [Option.eq_none_iff_forall_ne_some]
      intro n hsome
      obtain ⟨hnumeral, hfits⟩ := readUnsigned_maxWord64.mp hsome
      exact absurd hfits (Nat.not_lt_of_le (unread n hnumeral))
    rw [contentLength_of_decides decides, hread]

/-! ### The line that counts -/

/-- A line by itself is a header block of one line. -/
theorem decides_of_names (hline : ¬lineEnd <:+: line) (h : Names line value) :
    Decides line value := by
  refine ⟨[], line, [], ⟨by simp, rfl, ?_⟩, by simp, h⟩
  intro l hl
  obtain rfl : l = line := by simpa using hl
  exact hline

/-- The first line that names the length is read as if it stood alone. -/
theorem contentLength_eq_of_first {before after : List (List Char)}
    (hlines : Lines header (before ++ line :: after)) (hbefore : ∀ l ∈ before, ∀ v, ¬Names l v)
    (hline : Names line value) : contentLength header = contentLength line := by
  have hunbroken := hlines.unbroken line (by simp)
  rw [contentLength_of_decides ⟨before, line, after, hlines, hbefore, hline⟩,
    contentLength_of_decides (decides_of_names hunbroken hline)]

/-- A header block is read as the grammar says. It does not matter what lines stand in front of
the one that decides, nor what lines stand behind it. -/
theorem declared (header : List Char) :
    (∀ result, contentLength header = result ↔ Declares header result) ∧
      ∀ before line after value, Lines header (before ++ line :: after) →
        (∀ l ∈ before, ∀ v, ¬Names l v) → Names line value →
        contentLength header = contentLength line := by
  refine ⟨fun result => ⟨?_, contentLength_of_declares⟩, ?_⟩
  · rintro rfl
    exact declares_contentLength header
  · intro before line after value hlines hbefore hline
    exact contentLength_eq_of_first hlines hbefore hline

/-- Blanks, capital letters, a sign and leading zeros make no difference, and a second length is
not looked at. -/
example :
    contentLength "Host: x\r\n\tCONTENT-Length : +007 \r\nContent-Length: 8".toList = .ok 7 := by
  decide

end LanguageClient.Framing
