import LanguageClient.Framing
import LanguageClient.Proofs.Text.Lines
import LanguageClient.Proofs.Text.Trim
import LanguageClient.Proofs.Text.Utf8

/-!
# `LanguageClient.Proofs.Framing.Frame`: the first message of a text

`Framing.nextFrame` takes the first message off a text, finds a fault in front of
it, or finds that it is not complete. The theorems say what becomes of the three
when text is added behind, which is all that cutting a stream into chunks can do
to it.

* `nextFrame_append_message` / `nextFrame_append_error`: a message that is
  complete, and a fault, stay what they are.
* `length_lt_of_nextFrame`: a message takes at least one character off the text.
* `nextFrame_frame`: a written message is taken off whole, whatever follows it.
* `nextFrame_frame_part`: a proper part of a written message is neither complete
  nor faulty. It is a corollary: whatever else it were, the whole frame would be
  the same.
-/

set_option autoImplicit false

namespace LanguageClient.Framing

open Text

/-! ### Header blocks -/

/-- What stands between a header block and its body. -/
def blankLine : List Char := ['\r', '\n', '\r', '\n']

/-- A header block, the empty line and the rest are the text. Nothing is lost when a header is split
off, and so lengths and prefixes of the text can be told from the parts. -/
theorem eq_of_splitHeader? {s header rest : List Char}
    (h : splitHeader? s = some (header, rest)) : s = header ++ blankLine ++ rest := by
  fun_induction splitHeader? s generalizing header rest with
  | case1 s =>
    cases h
    rfl
  | case2 c s _ ih =>
    obtain ⟨⟨header, rest⟩, hs, hcons⟩ := Option.map_eq_some_iff.mp h
    cases hcons
    rw [ih hs]
    rfl
  | case3 => exact nomatch h

/-- The first empty line stays the first when text is added behind. A text that
has one has four characters from there on, so no new one arises further in
front. -/
theorem splitHeader?_append {s header rest : List Char}
    (h : splitHeader? s = some (header, rest)) (t : List Char) :
    splitHeader? (s ++ t) = some (header, rest ++ t) := by
  fun_induction splitHeader? s generalizing header rest with
  | case1 s =>
    cases h
    rfl
  | case2 c s hfirst ih =>
    obtain ⟨⟨header, rest⟩, hs, hcons⟩ := Option.map_eq_some_iff.mp h
    cases hcons
    -- The empty line found in `s` has four characters, so the three that would have to follow `c`
    -- for an earlier one are in `s` already, and not in what is added.
    have hlength : 4 ≤ s.length := by
      rw [eq_of_splitHeader? hs]
      simp only [blankLine, List.length_append, List.length_cons]
      omega
    have hnot : ∀ u, c = '\r' → s ++ t = '\n' :: '\r' :: '\n' :: u → False := by
      intro u hc hu
      match s, hlength with
      | x :: y :: z :: w, _ =>
        simp only [List.cons_append, List.cons.injEq] at hu
        obtain ⟨rfl, rfl, rfl, _⟩ := hu
        exact hfirst w hc rfl
    rw [List.cons_append, splitHeader?.eq_2 c (s ++ t) hnot, ih hs]
    rfl
  | case3 => exact nomatch h

/-- The first empty line is found without the text behind what follows it. So a message that is
complete in a longer text is complete as soon as its own text is there. -/
theorem splitHeader?_of_append {s t header rest : List Char}
    (h : splitHeader? (s ++ t) = some (header, rest ++ t)) :
    splitHeader? s = some (header, rest) := by
  fun_induction splitHeader? s generalizing header with
  | case1 s =>
    simp only [List.cons_append, splitHeader?, Option.some.injEq, Prod.mk.injEq] at h
    rw [h.1, List.append_cancel_right h.2]
  | case2 c s hfirst ih =>
    rw [List.cons_append] at h
    by_cases hblank : ∃ u, c = '\r' ∧ s ++ t = '\n' :: '\r' :: '\n' :: u
    · -- The empty line would be in front: then so it is without the text behind.
      obtain ⟨u, rfl, hu⟩ := hblank
      rw [hu] at h
      simp only [splitHeader?, Option.some.injEq, Prod.mk.injEq] at h
      obtain ⟨-, rfl⟩ := h
      have hs : s = '\n' :: '\r' :: '\n' :: rest := List.append_cancel_right hu
      exact (hfirst rest rfl hs).elim
    · rw [splitHeader?.eq_2 c (s ++ t) fun u hc hu => hblank ⟨u, hc, hu⟩] at h
      obtain ⟨⟨header, rest'⟩, hs, hcons⟩ := Option.map_eq_some_iff.mp h
      cases hcons
      rw [ih hs]
      rfl
  | case3 =>
    have hlength := congrArg List.length (eq_of_splitHeader? h)
    simp only [blankLine, List.length_append, List.length_cons, List.length_nil] at hlength
    omega

/-- A header block without a carriage return ends at the empty line after it. A line that is written
by `frame` has none, so this is how its header is found again. -/
theorem splitHeader?_of_notMem {header : List Char} (h : '\r' ∉ header) (rest : List Char) :
    splitHeader? (header ++ blankLine ++ rest) = some (header, rest) := by
  induction header with
  | nil => rfl
  | cons c header ih =>
    have hc : '\r' ≠ c := List.ne_of_not_mem_cons h
    have hheader : '\r' ∉ header := List.not_mem_of_not_mem_cons h
    have hnot : ∀ u, c = '\r' → header ++ blankLine ++ rest = '\n' :: '\r' :: '\n' :: u →
        False := fun _ hcr _ => hc hcr.symm
    rw [List.cons_append, List.cons_append, splitHeader?.eq_2 c _ hnot, ih hheader]
    rfl

/-! ### Bodies -/

/-- A character is taken if it fits into what is left of the length. If it does not, the cut would
be inside it. -/
theorem cutFrom_cons {n : Nat} (hn : 0 < n) (before : List Char) (c : Char) (s : List Char) :
    cutFrom before n (c :: s) =
      if c.utf8Size ≤ n then cutFrom (c :: before) (n - c.utf8Size) s else .inside := by
  cases n with
  | zero => exact absurd hn (Nat.lt_irrefl 0)
  | succ n => rfl

/-- A cut between two characters divides the text, and the first part has the
size asked for. -/
theorem cutFrom_eq_between {n : Nat} {before s a b : List Char}
    (h : cutFrom before n s = .between a b) :
    ∃ m, a = before.reverse ++ m ∧ s = m ++ b ∧ byteLength m = n := by
  fun_induction cutFrom before n s with
  | case1 before s =>
    cases h
    exact ⟨[], by rw [List.append_nil], rfl, rfl⟩
  | case2 => exact nomatch h
  | case3 before n c s hsize ih =>
    obtain ⟨m, rfl, rfl, hm⟩ := ih h
    refine ⟨c :: m, by simp, rfl, ?_⟩
    rw [byteLength_cons, hm]
    omega
  | case4 => exact nomatch h

/-- A cut that is found stays where it is when text is added behind. Only a cut beyond the end of
the text depends on what comes later, and then a call waits for more. -/
theorem cutFrom_append {n : Nat} {before s : List Char} (t : List Char)
    (h : cutFrom before n s ≠ .beyond) :
    cutFrom before n (s ++ t) =
      match cutFrom before n s with
      | .between a b => .between a (b ++ t)
      | cut => cut := by
  fun_induction cutFrom before n s with
  | case1 before s => simp only [cutFrom]
  | case2 => exact absurd rfl h
  | case3 before n c s hsize ih =>
    rw [List.cons_append, cutFrom_cons (Nat.succ_pos n), if_pos hsize]
    exact ih h
  | case4 before n c s hsize =>
    rw [List.cons_append, cutFrom_cons (Nat.succ_pos n), if_neg hsize]

/-- A cut behind a text of the size asked for. It falls between two characters, because the sizes of
the characters of `m` add up to its size, and each of them is at least one byte. -/
theorem cutFrom_byteLength (before m rest : List Char) :
    cutFrom before (byteLength m) (m ++ rest) = .between (before.reverse ++ m) rest := by
  induction m generalizing before with
  | nil =>
    rw [byteLength_nil, List.nil_append, cutFrom, List.append_nil]
  | cons c m ih =>
    have hc := c.utf8Size_pos
    rw [byteLength_cons, List.cons_append, cutFrom_cons (by omega), if_pos (by omega),
      Nat.add_sub_cancel_left, ih]
    simp

/-! ### Frames -/

/-- How the first message of a text comes about: a header block that names a length, and a body of
that length. It is the inversion of a read that succeeds, and the proofs about messages start from
it. -/
theorem nextFrame_eq_message {s body rest : List Char}
    (h : nextFrame s = .ok (some (body, rest))) :
    ∃ header, splitHeader? s = some (header, body ++ rest) ∧
      contentLength header = .ok (byteLength body) := by
  unfold nextFrame at h
  split at h
  · exact nomatch h
  · rename_i header after hsplit
    cases hlength : contentLength header with
    | error e =>
      rw [hlength] at h
      exact nomatch h
    | ok n =>
      rw [hlength] at h
      cases hcut : cutBytes n after with
      | between a b =>
        simp only [bind, Except.bind, hcut] at h
        cases h
        -- Only a cut between two characters gives a body.
        obtain ⟨m, hm, rfl, rfl⟩ := cutFrom_eq_between hcut
        rw [List.reverse_nil, List.nil_append] at hm
        subst hm
        exact ⟨header, hsplit, hlength⟩
      | inside =>
        simp only [bind, Except.bind, hcut] at h
        exact nomatch h
      | beyond =>
        simp only [bind, Except.bind, hcut] at h
        exact nomatch h

/-- A header block that names a length, and a body of that length. -/
theorem nextFrame_of_split {s header body rest : List Char}
    (hsplit : splitHeader? s = some (header, body ++ rest))
    (hlength : contentLength header = .ok (byteLength body)) :
    nextFrame s = .ok (some (body, rest)) := by
  have hcut : cutBytes (byteLength body) (body ++ rest) = .between body rest :=
    cutFrom_byteLength [] body rest
  simp only [nextFrame, hsplit, hlength, bind, Except.bind, hcut]
  rfl

/-- A complete message stays the first one when text is added behind. The text that is added is
behind the rest, so nothing that was read is read otherwise. -/
theorem nextFrame_append_message {s body rest : List Char}
    (h : nextFrame s = .ok (some (body, rest))) (t : List Char) :
    nextFrame (s ++ t) = .ok (some (body, rest ++ t)) := by
  obtain ⟨header, hsplit, hlength⟩ := nextFrame_eq_message h
  refine nextFrame_of_split ?_ hlength
  rw [splitHeader?_append hsplit, List.append_assoc]

/-- A message is complete without the text behind it. So a stream can be cut right behind any of its
messages, and each chunk then reads on its own. -/
theorem exists_nextFrame_of_message {s body rest : List Char}
    (h : nextFrame s = .ok (some (body, rest))) :
    ∃ front, s = front ++ rest ∧ nextFrame front = .ok (some (body, [])) := by
  obtain ⟨header, hsplit, hlength⟩ := nextFrame_eq_message h
  have hs := eq_of_splitHeader? hsplit
  rw [← List.append_assoc] at hs
  refine ⟨header ++ blankLine ++ body, hs, nextFrame_of_split ?_ hlength⟩
  rw [hs, List.append_assoc, List.append_assoc] at hsplit
  rw [List.append_assoc, List.append_nil]
  refine splitHeader?_of_append (t := rest) ?_
  rw [List.append_assoc, List.append_assoc]
  exact hsplit

/-- A fault stays the same when text is added behind. The header block is complete once there is a
fault, and no more text can repair it. -/
theorem nextFrame_append_error {s : List Char} {e : FramingError}
    (h : nextFrame s = .error e) (t : List Char) : nextFrame (s ++ t) = .error e := by
  unfold nextFrame at h ⊢
  split at h
  · exact nomatch h
  · rename_i header after hsplit
    rw [splitHeader?_append hsplit]
    cases hlength : contentLength header with
    | error e' =>
      rw [hlength] at h
      simp only [hlength]
      exact h
    | ok n =>
      -- The header names a length, so the fault is a cut inside a character.
      rw [hlength] at h
      cases hcut : cutBytes n after with
      | between a b =>
        simp only [bind, Except.bind, hcut] at h
        exact nomatch h
      | inside =>
        -- The cut is found inside a character, and stays there.
        simp only [bind, Except.bind, hcut] at h
        have hcut' : cutBytes n (after ++ t) = .inside := by
          have happend := cutFrom_append t (show cutFrom [] n after ≠ .beyond by
            rw [show cutFrom [] n after = .inside from hcut]
            exact fun hne => nomatch hne)
          rw [show cutFrom [] n after = .inside from hcut] at happend
          exact happend
        simp only [hlength, bind, Except.bind, hcut']
        exact h
      | beyond =>
        simp only [bind, Except.bind, hcut] at h
        exact nomatch h

/-- A message takes at least the empty line off the text. This is the measure by which the reading
of a text ends. -/
theorem length_lt_of_nextFrame {s body rest : List Char}
    (h : nextFrame s = .ok (some (body, rest))) : rest.length < s.length := by
  obtain ⟨header, hsplit, -⟩ := nextFrame_eq_message h
  rw [eq_of_splitHeader? hsplit]
  simp only [blankLine, List.length_append, List.length_cons]
  omega

/-! ### Written frames -/

/-- The header block that is written for a body of a size. -/
def lengthHeader (n : Nat) : List Char := "Content-Length: ".toList ++ decimal n

/-- A written frame is a header block that names the size, the empty line and the message. -/
theorem frame_eq (message : List Char) :
    frame message = lengthHeader (byteLength message) ++ blankLine ++ message := rfl

/-- A written header block has no carriage return, so no empty line comes before its end. -/
theorem notMem_lengthHeader (n : Nat) : '\r' ∉ lengthHeader n := by
  intro h
  rcases List.mem_append.mp h with h | h
  · revert h
    decide
  · exact absurd (isDigit_of_mem_decimal h) (by decide)

/-- The written header block names the size. The limit is needed: a larger message would be written
all the same, and refused by the reader. -/
theorem contentLength_lengthHeader {n : Nat} (h : n ≤ maxSize) :
    contentLength (lengthHeader n) = .ok n := by
  have hvalue : lengthValue? (lengthHeader n) = some (decimal n) := by
    have hsplit : splitFirst? ':' (lengthHeader n)
        = some ("Content-Length".toList, ' ' :: decimal n) := rfl
    have hname : (trim "Content-Length".toList).map Char.toLower = lengthName := by decide
    simp only [lengthValue?, hsplit, hname, if_true, trim_decimal]
  have hword : n ≤ maxWord64 := Nat.le_trans h (by decide)
  simp only [contentLength, splitCrLf_of_notMem (notMem_lengthHeader n),
    List.findSome?_cons, hvalue, readUnsigned_decimal hword]
  rw [if_neg (by omega)]

/-- A written message is taken off whole, whatever follows it. -/
theorem nextFrame_frame {message : List Char} (h : byteLength message ≤ maxSize)
    (rest : List Char) : nextFrame (frame message ++ rest) = .ok (some (message, rest)) := by
  refine nextFrame_of_split ?_ (contentLength_lengthHeader h)
  rw [frame_eq, List.append_assoc]
  exact splitHeader?_of_notMem (notMem_lengthHeader _) _

/-- A proper part of a written message is not complete, and no fault. Both would stay when the rest
of the frame comes, and then the frame would not be read as it was written. -/
theorem nextFrame_frame_part {message part rest : List Char}
    (h : byteLength message ≤ maxSize) (hpart : part ++ rest = frame message)
    (hrest : rest ≠ []) : nextFrame part = .ok none := by
  have hwhole : nextFrame (part ++ rest) = .ok (some (message, [])) := by
    rw [hpart, ← List.append_nil (frame message)]
    exact nextFrame_frame h []
  -- Whatever the part shows, the whole frame shows too.
  cases hnext : nextFrame part with
  | error e =>
    rw [nextFrame_append_error hnext] at hwhole
    exact nomatch hwhole
  | ok found =>
    cases found with
    | none => rfl
    | some pair =>
      obtain ⟨body, after⟩ := pair
      rw [nextFrame_append_message hnext] at hwhole
      simp only [Except.ok.injEq, Option.some.injEq, Prod.mk.injEq] at hwhole
      exact absurd (List.append_eq_nil_iff.mp hwhole.2).2 hrest

end LanguageClient.Framing
