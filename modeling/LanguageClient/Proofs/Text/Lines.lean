import LanguageClient.Text.Split

/-!
# `LanguageClient.Proofs.Text.Lines`: the lines of a text

A line end is a carriage return with a line feed behind it. `Lines` says what it is to divide a
text into lines, without saying how: put together with line ends between them, the lines are the
text, and none of them has a line end in it. There is one such division only, and `splitCrLf`
finds it.

* `splitCrLf_append`: the first line ends where the first line end stands.
* `lines_splitCrLf`, `splitCrLf_eq_iff`: what `splitCrLf` finds are the lines of the text.
* `splitCrLf_behind`: where two texts meet, their lines do too.
-/

set_option autoImplicit false

namespace LanguageClient.Text

variable {s line : List Char} {lines : List (List Char)}

/-- What ends a line. -/
def lineEnd : List Char := ['\r', '\n']

/-- A text is divided into lines:

- `nonempty`: it has a line, if only an empty one;
- `joined`: the text is its lines, with a line end between each and the next;
- `unbroken`: no line has a line end in it. -/
structure Lines (s : List Char) (lines : List (List Char)) : Prop where
  nonempty : lines ≠ []
  joined : joinWith lineEnd lines = s
  unbroken : ∀ line ∈ lines, ¬lineEnd <:+: line

/-! ### Line by line -/

/-- A character that begins no line end goes in front of the first line. -/
theorem splitCrLf_cons {c : Char} (h : ∀ u, c = '\r' → s = '\n' :: u → False) :
    splitCrLf (c :: s) =
      match splitCrLf s with
      | [] => [[c]]
      | line :: lines => (c :: line) :: lines :=
  splitCrLf.eq_3 c s h

/-- The first line is what stands in front of the first line end. The hypothesis is that no line end
is in `line`, so the one behind it is the first. -/
theorem splitCrLf_append (h : ¬lineEnd <:+: line) (rest : List Char) :
    splitCrLf (line ++ lineEnd ++ rest) = line :: splitCrLf rest := by
  induction line with
  | nil => rfl
  | cons c line ih =>
    have hline : ¬lineEnd <:+: line := fun hbreak => h (List.infix_cons hbreak)
    have hnot : ∀ u, c = '\r' → line ++ lineEnd ++ rest = '\n' :: u → False := by
      intro u hc hu
      cases line with
      | nil => simp [lineEnd] at hu
      | cons x line =>
        -- The line itself would begin with a line end.
        obtain ⟨rfl, -⟩ := List.cons.inj hu
        exact h ⟨[], line, by simp [lineEnd, hc]⟩
    rw [List.cons_append, List.cons_append, splitCrLf_cons hnot, ih hline]

/-- A text without a line end is one line. -/
theorem splitCrLf_of_unbroken (h : ¬lineEnd <:+: s) : splitCrLf s = [s] := by
  induction s with
  | nil => rfl
  | cons c s ih =>
    have hs : ¬lineEnd <:+: s := fun hbreak => h (List.infix_cons hbreak)
    have hnot : ∀ u, c = '\r' → s = '\n' :: u → False := by
      intro u hc hu
      exact h ⟨[], u, by simp [lineEnd, hc, hu]⟩
    rw [splitCrLf_cons hnot, ih hs]

/-- A text without a carriage return is one line. -/
theorem splitCrLf_of_notMem (h : '\r' ∉ s) : splitCrLf s = [s] := by
  refine splitCrLf_of_unbroken ?_
  intro hbreak
  exact h (hbreak.subset List.mem_cons_self)

/-! ### The lines of a text -/

/-- A character in front of the first line is a character in front of the joined text. -/
theorem joinWith_cons_cons (sep : List Char) (c : Char) (line : List Char)
    (lines : List (List Char)) :
    joinWith sep ((c :: line) :: lines) = c :: joinWith sep (line :: lines) := by
  cases lines with
  | nil => rfl
  | cons next lines => rfl

/-- What is found is a division into lines: joined they are the text, and none of them has a line
end in it. The cases are those of the search: the end of the text, a line end, and any other
character. -/
theorem lines_splitCrLf (s : List Char) : Lines s (splitCrLf s) := by
  fun_induction splitCrLf s with
  | case1 => exact ⟨by simp, rfl, by simp [lineEnd]⟩
  | case2 s ih =>
    -- A line end begins a new, empty line in front of the lines of the rest.
    obtain ⟨line, lines, hlines⟩ := List.exists_cons_of_ne_nil ih.nonempty
    have hjoined : joinWith lineEnd ([] :: splitCrLf s) =
        lineEnd ++ joinWith lineEnd (splitCrLf s) := by
      rw [hlines]
      rfl
    refine ⟨by simp, ?_, ?_⟩
    · rw [hjoined, ih.joined]
      rfl
    · intro line hmem
      rcases List.mem_cons.mp hmem with rfl | hmem
      · simp [lineEnd]
      · exact ih.unbroken line hmem
  | case3 c s hfirst hnil ih => exact absurd hnil ih.nonempty
  | case4 c s hfirst line lines hlines ih =>
    rw [hlines] at ih
    refine ⟨by simp, ?_, ?_⟩
    · -- The character goes in front of the first line of the rest.
      rw [joinWith_cons_cons, ih.joined]
    · intro l hmem
      rcases List.mem_cons.mp hmem with rfl | hmem
      · intro hbreak
        rcases List.infix_cons_iff.mp hbreak with ⟨rest, hrest⟩ | hbreak
        · -- The line end that begins with `c` would stand in the text.
          obtain ⟨rfl, rfl⟩ := List.cons.inj hrest
          have hs : '\n' :: joinWith lineEnd (rest :: lines) = s :=
            (joinWith_cons_cons lineEnd '\n' rest lines).symm.trans ih.joined
          exact hfirst _ rfl hs.symm
        · exact ih.unbroken line List.mem_cons_self hbreak
      · exact ih.unbroken l (List.mem_cons_of_mem line hmem)

/-- Every text has a line. -/
theorem splitCrLf_ne_nil (s : List Char) : splitCrLf s ≠ [] := (lines_splitCrLf s).nonempty

/-- A text is divided into lines in one way only: lines without a line end that give the text when
they are joined are the ones that are found. -/
theorem splitCrLf_of_lines (h : Lines s lines) : splitCrLf s = lines := by
  obtain ⟨hne, hjoined, hunbroken⟩ := h
  induction lines generalizing s with
  | nil => exact absurd rfl hne
  | cons line lines ih =>
    have hline : ¬lineEnd <:+: line := hunbroken line List.mem_cons_self
    cases lines with
    | nil =>
      have hs : line = s := hjoined
      rw [← hs, splitCrLf_of_unbroken hline]
    | cons next lines =>
      have hs : line ++ lineEnd ++ joinWith lineEnd (next :: lines) = s := hjoined
      -- The first line ends at the first line end, and the others are those of the rest.
      have hmore := ih (by simp) rfl fun l hl => hunbroken l (List.mem_cons_of_mem line hl)
      rw [← hs, splitCrLf_append hline, hmore]

/-- The lines of a text are those that `splitCrLf` finds. From here on the search itself is not
needed any more. -/
theorem splitCrLf_eq_iff : splitCrLf s = lines ↔ Lines s lines :=
  ⟨fun h => h ▸ lines_splitCrLf s, splitCrLf_of_lines⟩

/-! ### Lines behind others -/

/-- The last line of a text and the first line of what is behind it become one. The condition on the
seam is there because a line end may be cut in two. -/
theorem splitCrLf_behind {a b : List Char} {lines more : List (List Char)} {last first : List Char}
    (ha : splitCrLf a = lines ++ [last]) (hb : splitCrLf b = first :: more)
    (hseam : ∀ c ∈ b.head?, c ≠ '\n') :
    splitCrLf (a ++ b) = lines ++ (last ++ first) :: more := by
  induction a using splitCrLf.induct generalizing lines last with
  | case1 =>
    obtain ⟨rfl, hlast⟩ := List.append_inj' (show [] ++ [[]] = lines ++ [last] from ha) rfl
    rw [← List.cons.inj hlast |>.1]
    exact hb
  | case2 s ih =>
    rw [splitCrLf] at ha
    cases lines with
    | nil => exact absurd (List.cons.inj ha).2 (splitCrLf_ne_nil s)
    | cons line lines =>
      obtain ⟨rfl, hs⟩ := List.cons.inj ha
      rw [List.cons_append, List.cons_append, splitCrLf, ih hs]
      rfl
  | case3 c s hfirst hnil => exact absurd hnil (splitCrLf_ne_nil s)
  | case4 c s hfirst line rest hrest ih =>
    -- No line break begins at `c`, and what is behind does not make one of it.
    have hnot : ∀ u, c = '\r' → s ++ b = '\n' :: u → False := by
      intro u hc hu
      cases s with
      | nil =>
        rw [List.nil_append] at hu
        exact hseam '\n' (by rw [hu]; rfl) rfl
      | cons x s =>
        obtain ⟨rfl, -⟩ := List.cons.inj hu
        exact hfirst s hc rfl
    rw [splitCrLf_cons hfirst, hrest] at ha
    dsimp only at ha
    -- The line that begins with `c` is the last one, or there is another behind it.
    cases lines with
    | nil =>
      obtain ⟨rfl, rfl⟩ := List.cons.inj ha
      have hbehind : splitCrLf (s ++ b) = [] ++ (line ++ first) :: more := ih hrest
      rw [List.cons_append, splitCrLf_cons hnot, hbehind]
      rfl
    | cons front lines =>
      obtain ⟨rfl, rfl⟩ := List.cons.inj ha
      have hbehind : splitCrLf (s ++ b) = (line :: lines) ++ (last ++ first) :: more := ih hrest
      rw [List.cons_append, splitCrLf_cons hnot, hbehind]
      rfl

end LanguageClient.Text
