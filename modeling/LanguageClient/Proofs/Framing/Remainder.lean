import LanguageClient.Proofs.Framing.Receive
import LanguageClient.Proofs.Text.Split

/-!
# `LanguageClient.Proofs.Framing.Remainder`: what stands in front of a frame

Text that is left over from one frame stands in front of the next one and is read as the
beginning of its header block. That does no harm if the text is silent (`Silent`): it has no
empty line, no line of it names a length, and its last line, which the first header line
continues, is blank.

* `nextFrame_behind`: behind a silent text a frame is read as it is.
* `silent_of_reads`: only a silent text lets every written frame through. Two frames are
  enough to tell, one with an empty message and one with a message of one byte.
-/

set_option autoImplicit false

namespace LanguageClient.Framing

open Text

variable {a b : List Char}

/-! ### Lines behind others -/

/-- Where there is no empty line and none can arise at the seam, the first one is the first one of
what is behind. The hypothesis about the first character is what keeps one from arising there. -/
theorem splitHeader?_behind (ha : splitHeader? a = none)
    (hseam : ∀ c ∈ b.head?, c ≠ '\r' ∧ c ≠ '\n') :
    splitHeader? (a ++ b) = (splitHeader? b).map fun found => (a ++ found.1, found.2) := by
  fun_induction splitHeader? a with
  | case1 s => cases ha
  | case2 c s hfirst ih =>
    have hs : splitHeader? s = none := Option.map_eq_none_iff.mp ha
    -- An empty line that begins with `c` would need the first characters of `b`.
    have hnot : ∀ u, c = '\r' → s ++ b = '\n' :: '\r' :: '\n' :: u → False := by
      intro u hc hu
      rcases s with _ | ⟨x, _ | ⟨y, _ | ⟨z, w⟩⟩⟩
      · rw [List.nil_append] at hu
        exact (hseam '\n' (by rw [hu]; rfl)).2 rfl
      · simp only [List.cons_append, List.nil_append, List.cons.injEq] at hu
        exact (hseam '\r' (by rw [hu.2]; rfl)).1 rfl
      · simp only [List.cons_append, List.nil_append, List.cons.injEq] at hu
        exact (hseam '\n' (by rw [hu.2.2]; rfl)).2 rfl
      · simp only [List.cons_append, List.cons.injEq] at hu
        obtain ⟨rfl, rfl, rfl, -⟩ := hu
        exact hfirst w hc rfl
    rw [List.cons_append, splitHeader?.eq_2 c (s ++ b) hnot, ih hs, Option.map_map]
    rfl
  | case3 =>
    rw [List.nil_append]
    cases splitHeader? b <;> rfl

/-! ### Silent texts -/

/-- A text that has no effect on a frame behind it. -/
structure Silent (rest : List Char) : Prop where
  waits : splitHeader? rest = none
  lines : ∃ lines last, splitCrLf rest = lines ++ [last] ∧
    (∀ line ∈ lines, lengthValue? line = none) ∧ allBlank last = true

/-- Nothing at all is silent. -/
theorem silent_nil : Silent [] := ⟨rfl, [], [], rfl, nofun, rfl⟩

/-- A header block that is closed by an empty line and does not begin with a line end. -/
structure IsHeader (header : List Char) : Prop where
  closed : splitHeader? (header ++ blankLine) = some (header, [])
  starts : ∀ c ∈ header.head?, c ≠ '\r' ∧ c ≠ '\n'

/-- A written header block is one: the line has no end of its own, and it begins with a letter. -/
theorem isHeader_lengthHeader (n : Nat) : IsHeader (lengthHeader n) := by
  refine ⟨?_, ?_⟩
  · have hsplit := splitHeader?_of_notMem (notMem_lengthHeader n) []
    rwa [List.append_nil] at hsplit
  · intro c hc
    obtain rfl : 'C' = c := Option.some.inj hc
    decide

/-- Blanks in front of a header line do not count, since the name is trimmed. So what damage leaves
at the beginning of a line does not always hide the length in it. -/
theorem lengthValue?_behind (ha : allBlank a = true) (line : List Char) :
    lengthValue? (a ++ line) = lengthValue? line := by
  have hcolon : splitFirst? ':' a = none := splitFirst?_of_notMem fun hmem =>
    absurd (List.all_eq_true.mp ha ':' hmem) (by decide)
  rw [lengthValue?, lengthValue?, splitFirst?_behind hcolon]
  cases splitFirst? ':' line with
  | none => rfl
  | some found =>
    dsimp only [Option.map_some]
    rw [trim_behind ha]

/-- A silent text names no length. Its last line is the beginning of the first header line, which is
why it has to be blank. -/
theorem Silent.contentLength_behind {rest header : List Char} (h : Silent rest)
    (hstart : ∀ c ∈ header.head?, c ≠ '\r' ∧ c ≠ '\n') :
    contentLength (rest ++ header) = contentLength header := by
  obtain ⟨lines, last, hlines, hnone, hblank⟩ := h.lines
  obtain ⟨first, more, hheader⟩ := List.exists_cons_of_ne_nil (splitCrLf_ne_nil header)
  have hsilent : lines.findSome? lengthValue? = none := List.findSome?_eq_none_iff.mpr hnone
  rw [contentLength, contentLength, splitCrLf_behind hlines hheader fun c hc => (hstart c hc).2,
    hheader, List.findSome?_append, hsilent, Option.none_or, List.findSome?_cons,
    List.findSome?_cons, lengthValue?_behind hblank]

/-- Behind a silent text a frame is read as it is. The text is taken for a part of the header block,
and it goes with it. -/
theorem nextFrame_behind {rest header body : List Char} (hrest : Silent rest)
    (hheader : IsHeader header) (hlength : contentLength header = .ok (byteLength body))
    (t : List Char) :
    nextFrame (rest ++ (header ++ blankLine ++ (body ++ t))) = .ok (some (body, t)) := by
  have hsplit : splitHeader? (rest ++ (header ++ blankLine ++ (body ++ t))) =
      some (rest ++ header, body ++ t) := by
    -- No line end may arise where the two texts meet, or the header would begin elsewhere.
    have hseam : ∀ c ∈ (header ++ blankLine ++ (body ++ t)).head?, c ≠ '\r' ∧ c ≠ '\n' := by
      cases header with
      | nil => exact nomatch hlength
      | cons c header => exact hheader.starts
    rw [splitHeader?_behind hrest.waits hseam, splitHeader?_append hheader.closed]
    rfl
  exact nextFrame_of_split hsplit ((hrest.contentLength_behind hheader.starts).trans hlength)

/-! ### Texts that are not silent -/

/-- How the first of the messages of a text comes about: it is what the reader splits off next, and
the others are those of the rest. A text that waits or is faulty has no first message. -/
theorem exists_nextFrame_of_bodies {s body : List Char} {messages : List (List Char)}
    (h : bodies s = body :: messages) :
    ∃ rest, nextFrame s = .ok (some (body, rest)) ∧ bodies rest = messages := by
  cases hnext : nextFrame s with
  | error e =>
    rw [(read_of_fault hnext).1] at h
    exact nomatch h
  | ok found =>
    cases found with
    | none =>
      rw [(read_of_wait hnext).1] at h
      exact nomatch h
    | some pair =>
      obtain ⟨first, rest⟩ := pair
      rw [(read_of_message hnext).1] at h
      obtain ⟨rfl, hrest⟩ := List.cons.inj h
      exact ⟨rest, rfl, hrest⟩

/-- A line in front of a written header line is blank if the length is still read. Otherwise the
name of the field is longer, or the value has the name in it. -/
theorem allBlank_of_lengthValue {last value : List Char} {n max m : Nat}
    (h : lengthValue? (last ++ lengthHeader n) = some value)
    (hvalue : readUnsigned max value = some m) : allBlank last = true := by
  rw [← Bool.not_eq_false]
  intro hnot
  unfold lengthValue? at h
  cases hcolon : splitFirst? ':' last with
  | some found =>
    -- The colon is in the line already, so the value holds the whole header line.
    obtain ⟨name, front⟩ := found
    rw [splitFirst?_append hcolon] at h
    dsimp only at h
    split at h
    · obtain rfl := Option.some.inj h
      have hmem : 'C' ∈ trim (front ++ lengthHeader n) :=
        mem_trim (List.mem_append_right _ List.mem_cons_self) (by decide)
      rcases isDigit_of_readUnsigned hvalue hmem with hplus | hdigit
      · exact absurd hplus (by decide)
      · exact absurd hdigit (by decide)
    · exact nomatch h
  | none =>
    have hsplit : splitFirst? ':' (lengthHeader n) =
        some ("Content-Lengt".toList ++ ['h'], ' ' :: decimal n) := rfl
    rw [splitFirst?_behind hcolon, hsplit] at h
    dsimp only [Option.map_some] at h
    split at h
    · rename_i hname
      -- The name is longer than it may be.
      have hlength := length_trim_behind "Content-Lengt".toList (c := 'h') (by decide) hnot
      have hsame := congrArg List.length hname
      rw [List.length_map] at hsame
      rw [hsame] at hlength
      exact absurd hlength (by decide)
    · exact nomatch h

/-- Only a silent text lets every written frame through. Two frames of different sizes are enough: a
text that is not silent decides the length by itself, and cannot be right for both. -/
theorem silent_of_reads {rest : List Char}
    (h : ∀ message, byteLength message ≤ 1 → bodies (rest ++ frame message) = [message]) :
    Silent rest := by
  have hread : ∀ message, byteLength message ≤ 1 → ∃ header u,
      splitHeader? (rest ++ frame message) = some (header, u) ∧
        contentLength header = .ok (byteLength message) := by
    intro message hsize
    obtain ⟨u, hnext, -⟩ := exists_nextFrame_of_bodies (h message hsize)
    obtain ⟨header, hsplit, hlength⟩ := nextFrame_eq_message hnext
    exact ⟨header, _, hsplit, hlength⟩
  -- Whatever comes out of the text alone is the same for both frames.
  have htwo : ∀ length : Except FramingError Nat,
      ¬ (length = .ok (byteLength []) ∧ length = .ok (byteLength ['m'])) := by
    rintro length ⟨h₀, h₁⟩
    exact absurd (Except.ok.inj (h₀.symm.trans h₁)) (by decide)
  have hwaits : splitHeader? rest = none := by
    cases hsplit : splitHeader? rest with
    | none => rfl
    | some found =>
      obtain ⟨header, behind⟩ := found
      obtain ⟨_, _, h₀, hlength₀⟩ := hread [] (by decide)
      obtain ⟨_, _, h₁, hlength₁⟩ := hread ['m'] (by decide)
      rw [splitHeader?_append hsplit, Option.some.injEq, Prod.mk.injEq] at h₀ h₁
      exact (htwo _ ⟨h₀.1 ▸ hlength₀, h₁.1 ▸ hlength₁⟩).elim
  -- The text has no empty line, so the header block is that of the frame, behind the text.
  have hlength : ∀ message, byteLength message ≤ 1 →
      contentLength (rest ++ lengthHeader (byteLength message)) = .ok (byteLength message) := by
    intro message hsize
    obtain ⟨header, u, hsplit, hlength⟩ := hread message hsize
    have hseam : ∀ c ∈ (frame message).head?, c ≠ '\r' ∧ c ≠ '\n' :=
      (isHeader_lengthHeader (byteLength message)).starts
    rw [splitHeader?_behind hwaits hseam, frame_eq,
      splitHeader?_append (isHeader_lengthHeader _).closed] at hsplit
    obtain ⟨rfl, -⟩ := Prod.mk.inj (Option.some.inj hsplit)
    exact hlength
  have hlines : splitCrLf rest = (splitCrLf rest).dropLast ++
      [(splitCrLf rest).getLast (splitCrLf_ne_nil rest)] := (List.dropLast_concat_getLast _).symm
  generalize (splitCrLf rest).dropLast = lines at hlines
  generalize (splitCrLf rest).getLast _ = last at hlines
  have hvalues : ∀ n, (splitCrLf (rest ++ lengthHeader n)).findSome? lengthValue? =
      (lines.findSome? lengthValue?).or (lengthValue? (last ++ lengthHeader n)) := by
    intro n
    rw [splitCrLf_behind hlines (splitCrLf_of_notMem (notMem_lengthHeader n))
      fun c hc => ((isHeader_lengthHeader n).starts c hc).2, List.findSome?_append,
      List.findSome?_singleton]
  have h₀ := hlength [] (by decide)
  have h₁ := hlength ['m'] (by decide)
  rw [contentLength, hvalues] at h₀ h₁
  -- A line of the text that names a length would name the same one for both.
  have hnone : lines.findSome? lengthValue? = none := by
    cases hsome : lines.findSome? lengthValue? with
    | none => rfl
    | some value =>
      rw [hsome, Option.some_or] at h₀ h₁
      exact (htwo _ ⟨h₀, h₁⟩).elim
  refine ⟨hwaits, lines, last, hlines, List.findSome?_eq_none_iff.mp hnone, ?_⟩
  rw [hnone, Option.none_or] at h₀
  cases hvalue : lengthValue? (last ++ lengthHeader (byteLength [])) with
  | none =>
    rw [hvalue] at h₀
    cases h₀
  | some value =>
    cases hnumber : readUnsigned maxWord64 value with
    | none =>
      simp only [hvalue, hnumber] at h₀
      cases h₀
    | some m => exact allBlank_of_lengthValue hvalue hnumber

end LanguageClient.Framing
