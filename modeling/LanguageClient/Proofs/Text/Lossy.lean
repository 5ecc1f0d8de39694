import LanguageClient.Proofs.Text.Damage

/-!
# `LanguageClient.Proofs.Text.Lossy`: what lossy decoding is

`Decodes` says what it means to decode bytes and to put one replacement character for each
invalid sequence, without a decoder. It speaks of nothing but encoded characters: an invalid
sequence is a *maximal subpart* (`MaximalSubpart`), the longest bytes at a place where no
character stands that begin one, or else a single byte; and bytes at the end that begin a
character are left over (`Unfinished`).

The decoder works by a table of ranges, byte by byte. The bridge between the two is a sequence
under way that can still be completed (`Partial.Promising`): it begins a character, and a byte
outside the next range leads where no character goes.

* `decodes_text`: what the decoder makes of bytes is their lossy decoding.
* `Decodes.text_eq`: there is no other.
-/

set_option autoImplicit false

namespace LanguageClient.Text

open Utf8

/-! ### Without a decoder -/

/-- Bytes that begin a character, or are all of it. -/
def Begins (bytes : List UInt8) : Prop := ∃ c, bytes <+: String.utf8EncodeChar c

/-- Bytes that lack some at the end to be a character. -/
structure Unfinished (tail : List UInt8) : Prop where
  nonempty : tail ≠ []
  lacks : ∃ c more, more ≠ [] ∧ String.utf8EncodeChar c = tail ++ more

/-- The bytes at a place where no character stands that are replaced together. -/
structure MaximalSubpart (bad rest : List UInt8) : Prop where
  nonempty : bad ≠ []
  noCharacter : ∀ c, ¬ String.utf8EncodeChar c <+: bad ++ rest
  /-- Nothing that might come behind makes a character of them. -/
  broken : ¬ Begins (bad ++ rest)
  initial : bad.length = 1 ∨ Begins bad
  longest : ∀ more, more <+: bad ++ rest → Begins more → more.length ≤ bad.length

/-- The lossy decoding of bytes: their text, and the bytes that are left over. -/
inductive Decodes : List UInt8 → List Char → List UInt8 → Prop where
  | done : Decodes [] [] []
  | unfinished {tail : List UInt8} (htail : Unfinished tail) : Decodes tail [] tail
  | character (c : Char) {rest tail : List UInt8} {s : List Char} (hrest : Decodes rest s tail) :
      Decodes (String.utf8EncodeChar c ++ rest) (c :: s) tail
  | damage {bad rest tail : List UInt8} {s : List Char} (hbad : MaximalSubpart bad rest)
      (hrest : Decodes rest s tail) : Decodes (bad ++ rest) (replacement :: s) tail

/-- What stands at the beginning of bytes that begin a character begins it too. -/
theorem Begins.mono {bytes more : List UInt8} (h : Begins more) (hbytes : bytes <+: more) :
    Begins bytes := by
  obtain ⟨c, hc⟩ := h
  exact ⟨c, hbytes.trans hc⟩

/-- A text in front is decoded as it was encoded. Its characters are taken one after another, by the
constructor for characters. -/
theorem Decodes.encode_append {rest tail : List UInt8} {t : List Char} (h : Decodes rest t tail)
    (s : List Char) : Decodes (encode s ++ rest) (s ++ t) tail := by
  induction s with
  | nil => exact h
  | cons c s ih =>
    rw [encode_cons, List.append_assoc]
    exact .character c ih

/-! ### Characters among bytes -/

/-- No character begins with another one. This makes the lossy decoding unambiguous, since at any
place no more than one character stands. -/
theorem eq_nil_of_encodeChar_append {c c' : Char} {more : List UInt8}
    (h : String.utf8EncodeChar c' = String.utf8EncodeChar c ++ more) : more = [] := by
  -- The longer one is read as one character, and also as `c` with something behind it.
  have hwhole := scanFrom_encodeChar c' [] []
  have hfront := scanFrom_encodeChar c [] more
  have hbytes := encode_append_left begun?_none [] more
  rw [List.append_nil, h, hfront, scanFrom_read] at hwhole
  obtain ⟨htext, hstop⟩ := Prod.mk.inj hwhole
  -- One character was read, so that nothing is read behind `c`, up to the end.
  have hnone : (scanFrom none [] more).1 = [] := by
    have hlength := congrArg List.length htext
    simp only [List.reverse_singleton, List.length_append, List.length_singleton,
      Nat.add_eq_left] at hlength
    exact List.eq_nil_of_length_eq_zero hlength
  rw [hnone, hstop] at hbytes
  simpa [Stop.left] using hbytes.symm

/-- No character stands in front of a sequence that lacks its end: it would stand in front of a
longer character. -/
theorem Unfinished.noCharacter {tail : List UInt8} (h : Unfinished tail) (c : Char) :
    ¬ String.utf8EncodeChar c <+: tail := by
  rintro ⟨between, rfl⟩
  obtain ⟨-, c', more, hmore, hc'⟩ := h
  rw [List.append_assoc] at hc'
  exact hmore (List.append_eq_nil_iff.mp (eq_nil_of_encodeChar_append hc')).2

/-- A sequence that lacks its end begins the character that it lacks it for. -/
theorem Unfinished.begins {tail : List UInt8} (h : Unfinished tail) : Begins tail := by
  obtain ⟨c, more, -, hc⟩ := h.lacks
  exact ⟨c, more, hc.symm⟩

/-- A byte that begins no character is a maximal subpart by itself. This is the first of two ways in
which a scan stops at an invalid sequence. -/
theorem MaximalSubpart.of_stray {b : UInt8} (h : ¬ Begins [b]) (rest : List UInt8) :
    MaximalSubpart [b] rest := by
  -- Nothing but the empty list begins a character here, since everything else begins with that
  -- byte.
  have hnil : ∀ more, more <+: b :: rest → Begins more → more = [] := by
    intro more hpart hbegins
    cases more with
    | nil => rfl
    | cons x more =>
      obtain ⟨rfl, -⟩ := List.cons_prefix_cons.mp hpart
      exact absurd (hbegins.mono (List.prefix_append [x] more)) h
  refine ⟨List.cons_ne_nil _ _, ?_, ?_, .inl rfl, ?_⟩
  · intro c hc
    exact String.utf8EncodeChar_ne_nil (hnil _ hc ⟨c, List.prefix_rfl⟩)
  · intro hbegins
    exact List.cons_ne_nil _ _ (hnil _ List.prefix_rfl hbegins)
  · intro more hpart hbegins
    rw [hnil more hpart hbegins]
    exact Nat.zero_le _

/-- Bytes that begin a character are a maximal subpart if they do not with the next one. This is the
second way in which a scan stops. -/
theorem MaximalSubpart.of_unfinished {bad : List UInt8} {x : UInt8} (h : Unfinished bad)
    (hx : ¬ Begins (bad ++ [x])) (rest : List UInt8) : MaximalSubpart bad (x :: rest) := by
  have hnext : bad ++ [x] <+: bad ++ x :: rest := ⟨rest, List.append_assoc _ _ _⟩
  -- Whatever begins a character ends before the next byte.
  have hbefore : ∀ more, more <+: bad ++ x :: rest → Begins more → more <+: bad := by
    intro more hpart hbegins
    rcases List.prefix_or_prefix_of_prefix hpart hnext with hshort | hlong
    · -- It reaches no further than the next byte. If it has that byte, it begins nothing.
      rcases List.prefix_concat_iff.mp hshort with rfl | hshort
      · exact absurd hbegins hx
      · exact hshort
    · exact absurd (hbegins.mono hlong) hx
  refine ⟨h.nonempty, ?_, ?_, .inr h.begins, ?_⟩
  · intro c hc
    exact h.noCharacter c (hbefore _ hc ⟨c, List.prefix_rfl⟩)
  · intro hbegins
    exact hx (hbegins.mono hnext)
  · intro more hpart hbegins
    exact (hbefore more hpart hbegins).length_le

/-- There is no more than one maximal subpart at a place: two of them begin alike, and each is as
long as the other. So a decoder has no choice of what to replace. -/
theorem MaximalSubpart.unique {bad bad' rest rest' : List UInt8} (h : MaximalSubpart bad rest)
    (h' : MaximalSubpart bad' rest') (heq : bad ++ rest = bad' ++ rest') :
    bad = bad' ∧ rest = rest' := by
  -- The longer of two would be a single byte, and the other one empty.
  have hle : ∀ {a b r t : List UInt8}, MaximalSubpart a r → MaximalSubpart b t →
      a ++ r = b ++ t → a.length ≤ b.length := by
    intro a b r t ha hb hsame
    rcases ha.initial with hone | hbegins
    · rw [hone]
      exact List.length_pos_iff.mpr hb.nonempty
    · exact hb.longest a (hsame ▸ List.prefix_append a r) hbegins
  have hlength : bad.length = bad'.length := Nat.le_antisymm (hle h h' heq) (hle h' h heq.symm)
  exact List.append_inj heq hlength

/-! ### What stops a scan -/

namespace Utf8

/-- Behind every lead byte there is a way to go on: the least bytes of the ranges. So a lead byte is
always the beginning of a character. -/
theorem exists_fits {b : UInt8} {ranges : List ByteRange} (h : followers b = some ranges) :
    ∃ bytes, fits ranges bytes = true := by
  refine ⟨ranges.map ByteRange.low, ?_⟩
  unfold followers at h
  iterate 9
    split at h
    · cases h <;> rfl
  exact nomatch h

/-- A sequence under way that can still become a character. -/
structure Partial.Promising (p : Partial) : Prop extends p.Begun where
  fillable : ∃ bytes, fits (p.next :: p.later) bytes = true

/-- A lead byte is the beginning of a character. -/
theorem Partial.Promising.lead {b : UInt8} {next : ByteRange} {later : List ByteRange}
    (h : followers b = some (next :: later)) : Partial.Promising ⟨[b], leadBits b, next, later⟩ :=
  { Partial.Begun.lead h with fillable := exists_fits h }

/-- One more byte in its range keeps a sequence that can be completed: what is left of the bytes
that complete it does so still. -/
theorem Partial.Promising.more {p : Partial} (hp : p.Promising) {b : UInt8} {next : ByteRange}
    {later : List ByteRange} (hb : p.next.contains b = true) (hlater : p.later = next :: later) :
    Partial.Promising ⟨p.bytes ++ [b], 64 * p.value + b.toNat % 64, next, later⟩ := by
  refine { hp.toBegun.more hb hlater with fillable := ?_ }
  obtain ⟨bytes, hfits⟩ := hp.fillable
  rw [hlater] at hfits
  obtain ⟨_, rest, -, -, hrest⟩ := fits_cons.mp hfits
  exact ⟨rest, hrest⟩

/-- What is under way lacks its end, and there is one. This leads from the table to characters,
where the definition of the lossy decoding is. -/
theorem Partial.Promising.unfinished {p : Partial} (hp : p.Promising) : Unfinished p.bytes := by
  constructor
  · -- Nothing read so far is no sequence under way.
    intro hnil
    have hresume := hp.resumes [] []
    rw [hnil] at hresume
    exact nomatch hresume
  · obtain ⟨bytes, hfits⟩ := hp.fillable
    obtain ⟨b, rest, rfl, -⟩ := fits_cons.mp hfits
    exact ⟨_, b :: rest, List.cons_ne_nil _ _, hp.completes _ hfits⟩

/-- A byte outside its range makes nothing of a sequence under way: a scan reads every character,
and it would stop here. -/
theorem Partial.Promising.not_begins {p : Partial} (hp : p.Promising) {x : UInt8}
    (hx : p.next.contains x = false) : ¬ Begins (p.bytes ++ [x]) := by
  rintro ⟨c, more, hc⟩
  -- Encoded, the character would be read to its end.
  have hread := scanFrom_encodeChar c [] []
  rw [List.append_nil, ← hc, List.append_assoc, hp.resumes] at hread
  simp [scanFrom, hx] at hread

/-- A byte without a row in the table begins no character, for a scan would stop at it. -/
theorem not_begins_of_followers {b : UInt8} (h : followers b = none) : ¬ Begins [b] := by
  rintro ⟨c, more, hc⟩
  have hread := scanFrom_encodeChar c [] []
  rw [List.append_nil, ← hc] at hread
  simp [scanFrom, h] at hread

/-- What is behind a scan that has stopped: a character is lacking bytes, or there is a
maximal subpart. -/
inductive Stop.Grounded : Stop → Prop where
  | done : Grounded .done
  | unfinished {tail : List UInt8} (htail : Unfinished tail) : Grounded (.unfinished tail)
  | invalid {bad rest : List UInt8} (hbad : MaximalSubpart bad rest) : Grounded (.invalid bad rest)

/-- However a scan stops, there is a reason for it that mentions characters only. The invariant is
that what is under way can still be completed. -/
theorem grounded_scanFrom {current : Option Partial} (hcurrent : ∀ p ∈ current, p.Promising)
    (read : List Char) (bytes : List UInt8) : (scanFrom current read bytes).2.Grounded := by
  induction bytes generalizing current read with
  | nil =>
    cases current with
    | none => exact .done
    | some p => exact .unfinished (hcurrent p rfl).unfinished
  | cons x bytes ih =>
    have hnone : ∀ p ∈ (none : Option Partial), p.Promising := nofun
    have hsome : ∀ {p : Partial}, p.Promising → ∀ q ∈ some p, q.Promising := by
      rintro p hp q hq
      obtain rfl := Option.mem_some_iff.mp hq
      exact hp
    simp only [scanFrom]
    cases current with
    | none =>
      cases hx : followers x with
      -- Nothing was under way, and the byte begins nothing.
      | none => exact .invalid (.of_stray (not_begins_of_followers hx) bytes)
      | some ranges =>
        cases ranges with
        | nil => exact ih hnone _
        -- A lead byte that asks for more can still be completed.
        | cons next later => exact ih (hsome (.lead hx)) _
    | some p =>
      have hp := hcurrent p rfl
      dsimp only
      split
      · rename_i hcontains
        cases hlater : p.later with
        | nil => exact ih hnone _
        | cons next later => exact ih (hsome (hp.more hcontains hlater)) _
      · rename_i hnot
        -- Something was under way, and the byte does not continue it.
        have hx := Bool.eq_false_iff.mpr hnot
        exact .invalid (.of_unfinished hp.unfinished (hp.not_begins hx) bytes)

/-- However a scan from the start stops, there is a reason for it that mentions characters only.
Nothing is under way at the start. -/
theorem grounded_scan (bytes : List UInt8) : (scan bytes).2.Grounded := by
  have hnone : ∀ p ∈ (none : Option Partial), p.Promising := nofun
  exact grounded_scanFrom hnone [] bytes

end Utf8

/-! ### The decoder -/

/-- What a scan has read and what it has left make up its bytes: `encode_append_left` for a scan
from the start. -/
theorem bytes_of_scan {bytes : List UInt8} {s : List Char} {stop : Stop}
    (h : scan bytes = (s, stop)) : bytes = encode s ++ stop.left := by
  have hbytes := encode_append_left begun?_none [] bytes
  rw [show scanFrom none [] bytes = (s, stop) from h] at hbytes
  exact hbytes.symm

/-- What the decoder makes of bytes is their lossy decoding. The induction is on the way a scan
stops, and `grounded_scan` says which constructor describes it. -/
theorem decodes_text (bytes : List UInt8) :
    Decodes bytes (Decoder.text bytes) (Decoder.left bytes) := by
  induction bytes using Decoder.scan_induction with
  | valid bytes s stop hscan hvalid =>
    obtain ⟨htext, hleft⟩ := Decoder.text_of_valid hscan hvalid
    have hstop := grounded_scan bytes
    -- The scan came to the end, with a sequence that lacks its end or without one.
    have hrest : Decodes stop.left [] stop.left := by
      rw [hscan] at hstop
      cases hstop with
      | done => exact .done
      | unfinished htail => exact .unfinished htail
      | invalid => exact absurd rfl (hvalid _ _)
    have hall := hrest.encode_append s
    rw [List.append_nil, ← bytes_of_scan hscan] at hall
    rw [htext, hleft]
    exact hall
  | damage bytes s bad rest hscan ih =>
    obtain ⟨htext, hleft⟩ := Decoder.text_of_invalid hscan
    have hstop := grounded_scan bytes
    rw [hscan] at hstop
    cases hstop with
    | invalid hbad =>
      -- The scan stopped at an invalid sequence, which is the maximal subpart there.
      have hall := (Decodes.damage hbad ih).encode_append s
      rw [htext, hleft, bytes_of_scan hscan]
      exact hall

/-- Where no character stands, nothing is read. So a scan that starts at a maximal subpart stops
there. -/
theorem scan_of_noCharacter {bytes : List UInt8}
    (h : ∀ c, ¬ String.utf8EncodeChar c <+: bytes) :
    ∃ stop, scan bytes = ([], stop) ∧ bytes = stop.left ∧ stop.Grounded := by
  obtain ⟨s, stop, hscan⟩ : ∃ s stop, scan bytes = (s, stop) := ⟨_, _, rfl⟩
  have hbytes := bytes_of_scan hscan
  have hstop := grounded_scan bytes
  rw [hscan] at hstop
  cases s with
  | nil => exact ⟨stop, hscan, hbytes, hstop⟩
  | cons c s =>
    rw [encode_cons, List.append_assoc] at hbytes
    exact absurd ⟨_, hbytes.symm⟩ (h c)

/-- A scan finds what is unfinished in the sense of characters: bytes that begin the encoding of a
character and are not the whole of it. Of the three ways to stop, the other two contradict this. -/
theorem Unfinished.scan_eq {tail : List UInt8} (h : Unfinished tail) :
    scan tail = ([], .unfinished tail) := by
  obtain ⟨stop, hscan, hbytes, hstop⟩ := scan_of_noCharacter h.noCharacter
  cases hstop with
  | done => exact absurd hbytes h.nonempty
  | unfinished =>
    obtain rfl := hbytes
    exact hscan
  | invalid hbad =>
    obtain rfl := hbytes
    exact absurd h.begins hbad.broken

/-- A scan finds what is a maximal subpart in the sense of characters, and takes just that for
invalid. -/
theorem MaximalSubpart.scan_eq {bad rest : List UInt8} (h : MaximalSubpart bad rest) :
    scan (bad ++ rest) = ([], .invalid bad rest) := by
  obtain ⟨stop, hscan, hbytes, hstop⟩ := scan_of_noCharacter h.noCharacter
  cases hstop with
  | done => exact absurd (List.append_eq_nil_iff.mp hbytes).1 h.nonempty
  | unfinished htail =>
    obtain rfl := hbytes
    exact absurd htail.begins h.broken
  | invalid hbad =>
    obtain ⟨rfl, rfl⟩ := h.unique hbad hbytes
    exact hscan

/-- Bytes have no other lossy decoding than the decoder's. So `Decodes`, which knows no decoder, is
a description of one function. -/
theorem Decodes.text_eq {bytes tail : List UInt8} {s : List Char} (h : Decodes bytes s tail) :
    s = Decoder.text bytes ∧ tail = Decoder.left bytes := by
  induction h with
  | done => exact ⟨rfl, rfl⟩
  | unfinished htail =>
    obtain ⟨htext, hleft⟩ := Decoder.text_of_valid htail.scan_eq nofun
    exact ⟨htext.symm, hleft.symm⟩
  | @character c rest tail s _ ih =>
    -- One character in front is a text in front.
    obtain ⟨htext, hleft⟩ := Decoder.text_encode_append [c] rest
    rw [encode_cons, encode_nil, List.append_nil] at htext hleft
    rw [htext, hleft, ← ih.1, ← ih.2]
    exact ⟨rfl, rfl⟩
  | damage hbad _ ih =>
    obtain ⟨htext, hleft⟩ := Decoder.text_of_invalid hbad.scan_eq
    rw [htext, hleft, ← ih.1, ← ih.2]
    exact ⟨rfl, rfl⟩

end LanguageClient.Text
