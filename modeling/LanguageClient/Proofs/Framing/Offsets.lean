import LanguageClient.Proofs.Framing.Frame

/-!
# `LanguageClient.Proofs.Framing.Offsets`: the first message by byte positions

The first message of a buffer can be read off without taking the text apart: look for the
bytes of the empty line, count from there, and cut the buffer at the positions that come out.
Each step can go wrong. A difference may fall below zero, and a cut may lie outside the buffer
or inside a character; `minus?` and `slice?` then give nothing, and so does `frameAt?`, which
reads a message in this way.

* `position?_encode`: the first empty line is at the same place in the bytes as in the text.
* `cutFrom_spec`: a cut between two characters, inside one or behind the end is told from the
  length and the byte at the position.
* `frameAt?_encode`: for the bytes of a text no step goes wrong, and what is read is what
  `nextFrame` says.
-/

set_option autoImplicit false

namespace LanguageClient.Text

open Utf8

/-! ### Positions -/

/-- Whether a position is between two characters: at either end of the bytes, or in front of a
byte that continues no character. -/
def isBoundary (bytes : List UInt8) (i : Nat) : Bool :=
  match bytes[i]? with
  | some b => i == 0 || !continuation.contains b
  | none => i == bytes.length

/-- The bytes from one position to another; both have to be between two characters. -/
def slice? (bytes : List UInt8) (start stop : Nat) : Option (List UInt8) :=
  if start ≤ stop ∧ isBoundary bytes start = true ∧ isBoundary bytes stop = true then
    some ((bytes.take stop).drop start)
  else none

/-- Where a pattern occurs first. -/
def position? (pattern : List UInt8) : List UInt8 → Option Nat
  | [] => if pattern.isEmpty then some 0 else none
  | b :: bytes =>
    if pattern.isPrefixOf (b :: bytes) then some 0 else (position? pattern bytes).map (· + 1)

/-- A difference that is not below zero. -/
def minus? (a b : Nat) : Option Nat := if b ≤ a then some (a - b) else none

/-! ### The bytes of a character -/

/-- Each byte that fits some ranges is in one of them. By induction on the ranges, since bytes and
ranges are taken one by one. -/
theorem mem_of_fits {ranges : List ByteRange} {bytes : List UInt8}
    (h : fits ranges bytes = true) {x : UInt8} (hx : x ∈ bytes) :
    ∃ r ∈ ranges, r.contains x = true := by
  induction ranges generalizing bytes with
  | nil =>
    obtain rfl := fits_nil.mp h
    exact nomatch hx
  | cons r ranges ih =>
    obtain ⟨b, rest, rfl, hb, hrest⟩ := fits_cons.mp h
    rcases List.mem_cons.mp hx with rfl | hx
    · exact ⟨r, List.mem_cons_self, hb⟩
    · obtain ⟨r', hr', hcontains⟩ := ih hrest hx
      exact ⟨r', List.mem_cons_of_mem r hr', hcontains⟩

/-- The bytes that continue a character, as numbers. -/
theorem continuation_contains_iff {b : UInt8} :
    continuation.contains b = true ↔ 0x80 ≤ b.toNat ∧ b.toNat ≤ 0xBF := contains_iff

/-- The first byte of a character continues none, and all others do. So the boundaries between
characters can be told from single bytes. -/
theorem exists_lead (c : Char) :
    ∃ b bytes, String.utf8EncodeChar c = b :: bytes ∧ continuation.contains b = false ∧
      ∀ x ∈ bytes, continuation.contains x = true := by
  obtain ⟨b, ranges, bytes, hbytes, hfollow, hfit, -⟩ := exists_fits_encodeChar c
  refine ⟨b, bytes, hbytes, ?_, fun x hx => ?_⟩
  · rw [Bool.eq_false_iff, ne_eq, continuation_contains_iff]
    rcases followers_cases hfollow with ⟨-, h⟩ | ⟨-, h⟩ | ⟨_, -, h, -⟩ | ⟨_, -, h, -⟩ <;> omega
  · obtain ⟨r, hr, hcontains⟩ := mem_of_fits hfit hx
    exact continuation_contains_iff.mpr (continues_of_followers hfollow hr hcontains)

/-- The byte of a carriage return belongs to no other character. -/
theorem eq_of_mem_encodeChar {c : Char} (h : 13 ∈ String.utf8EncodeChar c) : c = '\r' := by
  obtain ⟨b, ranges, bytes, hbytes, hfollow, hfit, hc⟩ := exists_fits_encodeChar c
  rw [hbytes] at h
  rcases List.mem_cons.mp h with rfl | h
  · obtain rfl : [] = ranges := Option.some.inj hfollow
    obtain rfl := fits_nil.mp hfit
    exact hc.symm
  · obtain ⟨r, hr, hcontains⟩ := mem_of_fits hfit h
    exact absurd (continues_of_followers hfollow hr hcontains).1 (by decide)

/-- A text stands in front of another one if its bytes do. -/
theorem prefix_of_encode_prefix {p s : List Char} (h : encode p <+: encode s) : p <+: s := by
  obtain ⟨bytes, hbytes⟩ := h
  have hscan := scanFrom_encode p [] bytes
  rw [hbytes, List.append_nil, scanFrom_read none p.reverse bytes, List.reverse_reverse] at hscan
  exact ⟨_, (congrArg Prod.fst ((scan_encode s).symm.trans hscan)).symm⟩

/-! ### Boundaries -/

/-- Before the first byte there is always a boundary. -/
theorem isBoundary_zero (bytes : List UInt8) : isBoundary bytes 0 = true := by
  cases bytes with
  | nil => rfl
  | cons b bytes => rfl

/-- Behind other bytes the boundaries of a text are where they are without these. Those bytes need
not be text themselves, which allows the induction to take off one character at a time. -/
theorem isBoundary_append_encode (bytes : List UInt8) (s : List Char) (n : Nat) :
    isBoundary (bytes ++ encode s) (bytes.length + n) = isBoundary (encode s) n := by
  have hget : (bytes ++ encode s)[bytes.length + n]? = (encode s)[n]? := by
    rw [List.getElem?_append_right (by omega), Nat.add_sub_cancel_left]
  cases n with
  | zero =>
    rw [isBoundary_zero, isBoundary, hget]
    cases s with
    | nil => simp
    | cons c s =>
      -- The text begins with the first byte of a character.
      obtain ⟨b, rest, hc, hb, -⟩ := exists_lead c
      rw [encode_cons, hc, List.cons_append, List.getElem?_cons_zero]
      simp only [hb, Bool.not_false, Bool.or_true]
  | succ n =>
    rw [isBoundary, isBoundary, hget]
    cases (encode s)[n + 1]? with
    | none =>
      rw [List.length_append, Bool.eq_iff_iff, beq_iff_eq, beq_iff_eq]
      omega
    | some b => rfl

/-- Between two texts there is a boundary. -/
theorem isBoundary_append (s t : List Char) :
    isBoundary (encode (s ++ t)) (byteLength s) = true := by
  have h := isBoundary_append_encode (encode s) t 0
  rwa [isBoundary_zero, Nat.add_zero, length_encode, ← encode_append] at h

/-- There is no boundary inside a character. The bytes after its first are continuation bytes, and a
position is a boundary only if the byte there is none. -/
theorem isBoundary_inside {c : Char} {n : Nat} (hn : 0 < n) (hsize : n < c.utf8Size)
    (s : List Char) : isBoundary (encode (c :: s)) n = false := by
  obtain ⟨b, bytes, hc, -, hbytes⟩ := exists_lead c
  have hlength := String.length_utf8EncodeChar c
  rw [hc, List.length_cons] at hlength
  obtain ⟨m, rfl⟩ := Nat.exists_eq_succ_of_ne_zero (Nat.ne_of_gt hn)
  have hm : m < bytes.length := by omega
  have hget : (encode (c :: s))[m + 1]? = some bytes[m] := by
    rw [encode_cons, hc, List.cons_append, List.getElem?_cons_succ,
      List.getElem?_append_left hm, List.getElem?_eq_getElem hm]
  simp [isBoundary, hget, hbytes _ (List.getElem_mem hm)]

/-- A part of a text is cut out of its bytes. Both cuts are between characters, since all three
parts are texts. -/
theorem slice?_encode (a b c : List Char) :
    slice? (encode (a ++ b ++ c)) (byteLength a) (byteLength a + byteLength b) =
      some (encode b) := by
  have hstart : isBoundary (encode (a ++ b ++ c)) (byteLength a) = true := by
    rw [List.append_assoc]
    exact isBoundary_append a (b ++ c)
  have hstop : isBoundary (encode (a ++ b ++ c)) (byteLength a + byteLength b) = true := by
    rw [← byteLength_append]
    exact isBoundary_append (a ++ b) c
  -- Positions are lengths of encoded texts, so what is cut out is the part between them.
  rw [slice?, if_pos ⟨Nat.le_add_right _ _, hstart, hstop⟩, encode_append, encode_append]
  rw [← length_encode a, ← length_encode b, ← List.length_append, List.take_left', List.drop_left']
  · rfl
  · rfl

/-! ### Occurrences -/

/-- Where no byte can begin a pattern, it does not occur. So the search passes over such bytes, and
finds what it would find behind them, by so much further on. -/
theorem position?_append {first : UInt8} {pattern bytes : List UInt8} (h : first ∉ bytes)
    (rest : List UInt8) : position? (first :: pattern) (bytes ++ rest) =
      (position? (first :: pattern) rest).map (· + bytes.length) := by
  induction bytes with
  | nil => simp
  | cons b bytes ih =>
    have hb : first ≠ b := List.ne_of_not_mem_cons h
    rw [List.cons_append, position?, List.isPrefixOf, beq_eq_false_iff_ne.mpr hb,
      ih (List.not_mem_of_not_mem_cons h)]
    simp [Function.comp_def, Nat.add_assoc]

end LanguageClient.Text

namespace LanguageClient.Framing

open Text Utf8

/-! ### The parts of a message by position -/

/-- The bytes of the empty line behind a header block. -/
def blankBytes : List UInt8 := [13, 10, 13, 10]

/-- The bytes of the empty line, which the search looks for. -/
theorem encode_blankLine : encode blankLine = blankBytes := by decide

/-- A text begins with an empty line if its bytes do. -/
theorem prefix_of_blankBytes {s : List Char}
    (h : blankBytes.isPrefixOf (encode s) = true) : blankLine <+: s :=
  prefix_of_encode_prefix (encode_blankLine ▸ List.isPrefixOf_iff_prefix.mp h)

/-- The first empty line of a text, found in its bytes. The position counts bytes, and the header
block in front of it has as many. -/
theorem position?_encode (s : List Char) :
    position? blankBytes (encode s) = (splitHeader? s).map fun found => byteLength found.1 := by
  fun_induction splitHeader? s with
  | case1 s => rfl
  | case2 c s hfirst ih =>
    have hlater : position? blankBytes (encode (c :: s)) =
        (position? blankBytes (encode s)).map (· + c.utf8Size) := by
      by_cases hc : c = '\r'
      · -- The byte could begin the pattern, but then the text would begin with an empty line.
        subst hc
        have hnot : blankBytes.isPrefixOf (13 :: encode s) = false := by
          rw [Bool.eq_false_iff]
          intro hprefix
          obtain ⟨t, ht⟩ := prefix_of_blankBytes (s := '\r' :: s) hprefix
          exact hfirst t rfl (List.cons.inj ht).2.symm
        rw [show encode ('\r' :: s) = 13 :: encode s from rfl, position?, hnot]
        rfl
      · have hnot : 13 ∉ String.utf8EncodeChar c := fun h => hc (eq_of_mem_encodeChar h)
        rw [encode_cons, blankBytes, position?_append hnot, String.length_utf8EncodeChar]
    rw [hlater, ih]
    cases splitHeader? s with
    | none => rfl
    | some found => simp [Nat.add_comm]
  | case3 => rfl

/-- What a cut after a number of bytes finds, said of the position. The three cases are told apart
by the length of the text and by one byte of it. -/
theorem cutFrom_spec (before : List Char) (n : Nat) (s : List Char) :
    match cutFrom before n s with
    | .between _ _ => n ≤ byteLength s ∧ isBoundary (encode s) n = true
    | .inside => n < byteLength s ∧ isBoundary (encode s) n = false
    | .beyond => byteLength s < n := by
  fun_induction cutFrom before n s with
  | case1 before s => exact ⟨Nat.zero_le _, isBoundary_zero _⟩
  | case2 => exact Nat.succ_pos _
  | case3 before n c s hsize ih =>
    have hshift := isBoundary_append_encode (String.utf8EncodeChar c) s (n + 1 - c.utf8Size)
    rw [String.length_utf8EncodeChar, ← encode_cons, Nat.add_sub_cancel' hsize] at hshift
    rw [byteLength_cons, hshift]
    cases hcut : cutFrom (c :: before) (n + 1 - c.utf8Size) s with
    | between a b =>
      rw [hcut] at ih
      exact ⟨by omega, ih.2⟩
    | inside =>
      rw [hcut] at ih
      exact ⟨by omega, ih.2⟩
    | beyond =>
      rw [hcut] at ih
      exact by omega
  | case4 before n c s hsize =>
    rw [byteLength_cons]
    -- The first character is longer than what is left, so the position is inside it.
    exact ⟨by omega, isBoundary_inside (Nat.succ_pos n) (by omega) s⟩

/-! ### The first message by position -/

/-- What a buffer gives when it is read by positions: nothing at all if a step goes wrong, else
as `nextFrame`. -/
abbrev Found? : Type := Option (Except FramingError (Option (List UInt8 × List UInt8)))

/-- The body of a length behind a position, and what follows it. -/
def bodyAt? (buffer : List UInt8) (start length : Nat) : Found? := do
  let available ← minus? buffer.length start
  if available < length then some (.ok none)
  else if isBoundary buffer (start + length) = false then
    some (.error (.splitsCharacter length))
  else
    let body ← slice? buffer start (start + length)
    let rest ← slice? buffer (start + length) buffer.length
    some (.ok (some (body, rest)))

/-- The first message of a buffer and what follows it. -/
def frameAt? (buffer : List UInt8) : Found? :=
  match position? blankBytes buffer with
  | none => some (.ok none)
  | some headerEnd => do
    let header ← decode? (← slice? buffer 0 headerEnd)
    match contentLength header with
    | .error e => some (.error e)
    | .ok length => bodyAt? buffer (headerEnd + blankBytes.length) length

/-- What is read off a text, in bytes. -/
def inBytes (found : Except FramingError (Option (List Char × List Char))) :
    Except FramingError (Option (List UInt8 × List UInt8)) :=
  found.map (Option.map fun (body, rest) => (encode body, encode rest))

/-- The bytes of a text are decoded to it. -/
theorem decode?_encode (s : List Char) : decode? (encode s) = some s := by
  rw [decode?, scan_encode]

/-- Behind a text in front, the body is cut out of the bytes as it is cut off the text. No
difference falls below zero, since the position is not behind the end. -/
theorem bodyAt?_encode (front rest : List Char) (n : Nat) :
    bodyAt? (encode (front ++ rest)) (byteLength front) n =
      some (inBytes (match cutBytes n rest with
        | .between body rest => .ok (some (body, rest))
        | .inside => .error (.splitsCharacter n)
        | .beyond => .ok none)) := by
  have hlength : (encode (front ++ rest)).length = byteLength front + byteLength rest := by
    rw [length_encode, byteLength_append]
  have hminus : minus? (encode (front ++ rest)).length (byteLength front) =
      some (byteLength rest) := by
    rw [hlength, minus?, if_pos (Nat.le_add_right _ _), Nat.add_sub_cancel_left]
  have hbound : isBoundary (encode (front ++ rest)) (byteLength front + n) =
      isBoundary (encode rest) n := by
    rw [encode_append, ← length_encode front]
    exact isBoundary_append_encode (encode front) rest n
  have hspec := cutFrom_spec [] n rest
  rw [bodyAt?, hminus, Option.bind_eq_bind, Option.bind_some, hbound]
  cases hcut : cutBytes n rest with
  | beyond =>
    simp only [show cutFrom [] n rest = .beyond from hcut] at hspec
    rw [if_pos hspec]
    rfl
  | inside =>
    simp only [show cutFrom [] n rest = .inside from hcut] at hspec
    rw [if_neg (Nat.not_lt.mpr (Nat.le_of_lt hspec.1)), if_pos hspec.2]
    rfl
  | between body after =>
    -- Both cuts are between characters, so both parts are there.
    simp only [show cutFrom [] n rest = .between body after from hcut] at hspec
    obtain ⟨m, hm, rfl, rfl⟩ := cutFrom_eq_between hcut
    obtain rfl : body = m := hm
    have hbody := slice?_encode front body after
    have hafter := slice?_encode (front ++ body) after []
    rw [List.append_assoc] at hbody
    rw [List.append_nil, List.append_assoc, byteLength_append front, Nat.add_assoc,
      ← byteLength_append body, ← hlength] at hafter
    have hbetween : ¬ isBoundary (encode (body ++ after)) (byteLength body) = false := by
      rw [hspec.2]
      exact Bool.noConfusion
    rw [if_neg (Nat.not_lt.mpr hspec.1), if_neg hbetween, hbody, hafter]
    rfl

/-- For the bytes of a text no difference falls below zero and every cut is between two characters
of the text, and what is read is what the text begins with. So `nextFrame`, which takes the text
apart, may stand for the reading by positions. -/
theorem frameAt?_encode (s : List Char) : frameAt? (encode s) = some (inBytes (nextFrame s)) := by
  rw [frameAt?, position?_encode]
  cases hsplit : splitHeader? s with
  | none =>
    simp only [nextFrame, hsplit]
    rfl
  | some found =>
    obtain ⟨header, rest⟩ := found
    obtain rfl := eq_of_splitHeader? hsplit
    -- The first cut is between the header and the empty line, thus between two characters.
    have hheader : slice? (encode (header ++ blankLine ++ rest)) 0 (byteLength header) =
        some (encode header) := by
      have h := slice?_encode [] header (blankLine ++ rest)
      rwa [List.nil_append, ← List.append_assoc, byteLength_nil, Nat.zero_add] at h
    -- The body begins behind the empty line. Its position is the length of what is in front of it.
    have hstart : byteLength header + blankBytes.length = byteLength (header ++ blankLine) := by
      rw [byteLength_append]
      rfl
    simp only [Option.map_some, hheader, hstart, Option.bind_eq_bind, Option.bind_some,
      decode?_encode, nextFrame, hsplit]
    cases contentLength header with
    | error e => rfl
    | ok n => exact bodyAt?_encode (header ++ blankLine) rest n

end LanguageClient.Framing
