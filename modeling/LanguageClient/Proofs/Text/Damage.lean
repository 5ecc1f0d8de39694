import LanguageClient.Proofs.Text.Decoder

/-!
# `LanguageClient.Proofs.Text.Damage`: bytes that are not all text

`Decoder.drain` makes a text of any bytes: valid runs stay, each invalid sequence reads as
one replacement character, and an unfinished sequence at the end is left over.

* `text_of_valid` / `text_of_invalid`: the text of bytes, by how a scan of them stops;
  `scan_induction` is the induction that goes with them.
* `text_append`: what is left of the first bytes is read again in front of the next.
* `text_pushAll`: so the text does not depend on how the bytes are cut into portions.
* `text_left_encode`: an unfinished sequence is damage as soon as a text comes behind it.
-/

set_option autoImplicit false

namespace LanguageClient.Text

open Utf8

namespace Utf8

/-- An invalid sequence has at least one byte. So a decoder that replaces one makes progress, and
its loop ends. -/
theorem ne_nil_of_invalid {current : Option Partial} (hcurrent : Begun? current)
    {read s : List Char} {bytes bad rest : List UInt8}
    (h : scanFrom current read bytes = (s, .invalid bad rest)) : bad ≠ [] := by
  induction bytes generalizing current read with
  | nil =>
    cases current with
    | none => cases h
    | some p => cases h
  | cons x bytes ih =>
    simp only [scanFrom] at h
    cases current with
    | none =>
      cases hx : followers x with
      | none =>
        -- A byte that begins nothing is the invalid sequence, all by itself.
        simp only [hx, Prod.mk.injEq, Stop.invalid.injEq] at h
        rw [← h.2.1]
        exact List.cons_ne_nil _ _
      | some ranges =>
        simp only [hx] at h
        cases ranges with
        | nil => exact ih begun?_none h
        | cons next later => exact ih (begun?_some (.lead hx)) h
    | some p =>
      simp only at h
      split at h
      · rename_i hcontains
        cases hlater : p.later with
        | nil =>
          simp only [hlater] at h
          exact ih begun?_none h
        | cons next later =>
          simp only [hlater] at h
          exact ih (begun?_some ((hcurrent p rfl).more hcontains hlater)) h
      · -- The sequence under way is the invalid one; reading no bytes does not begin one.
        simp only [Prod.mk.injEq, Stop.invalid.injEq] at h
        obtain ⟨-, rfl, -⟩ := h
        intro hnil
        have hresume := (hcurrent p rfl).resumes [] []
        rw [hnil] at hresume
        cases hresume

/-- An invalid sequence is found again in front of what follows it. A decoder that first gives out
the text in front of it meets it at its next look. -/
theorem scan_of_invalid {bytes bad rest : List UInt8} {s : List Char}
    (h : scan bytes = (s, .invalid bad rest)) :
    scan (bad ++ rest) = ([], .invalid bad rest) ∧ encode s ++ (bad ++ rest) = bytes := by
  have hbytes := encode_append_left begun?_none [] bytes
  rw [show scanFrom none [] bytes = (s, .invalid bad rest) from h] at hbytes
  have hagain := scanFrom_encode s [] (bad ++ rest)
  rw [show encode s ++ (bad ++ rest) = bytes from hbytes,
    show scanFrom none [] bytes = (s, .invalid bad rest) from h, scanFrom_read,
    List.append_nil, List.reverse_reverse] at hagain
  have hread := List.self_eq_append_right.mp (congrArg Prod.fst hagain)
  have hstop := (congrArg Prod.snd hagain).symm
  exact ⟨Prod.ext hread hstop, hbytes⟩

end Utf8

namespace Decoder

/-! ### Pieces -/

/-- A piece takes at least one byte. This is the measure of the loop that takes out one piece after
another. -/
theorem length_lt_of_extract {bytes rest : List UInt8} {piece : Piece}
    (h : extract bytes = some (piece, rest)) : rest.length < bytes.length := by
  obtain ⟨s, stop, hscan⟩ : ∃ s stop, scan bytes = (s, stop) := ⟨_, _, rfl⟩
  have hbytes := encode_append_left begun?_none [] bytes
  rw [show scanFrom none [] bytes = (s, stop) from hscan] at hbytes
  have hlength : (encode s).length + stop.left.length = bytes.length :=
    List.length_append ▸ congrArg List.length hbytes
  unfold extract at h
  rw [hscan] at h
  cases s with
  | nil =>
    -- Nothing was read, so the piece is an invalid sequence or there is none.
    cases stop with
    | done => exact nomatch h
    | unfinished tail => exact nomatch h
    | invalid bad behind =>
      cases h
      have hbad := List.length_pos_iff.mpr (ne_nil_of_invalid begun?_none hscan)
      rw [Stop.left, List.length_append] at hlength
      omega
  | cons c s =>
    -- Some text was read, and each of its characters has a byte.
    have hread : 0 < (encode (c :: s)).length := by
      obtain ⟨b, ranges, more, hc, -⟩ := exists_fits_encodeChar c
      rw [encode_cons, hc]
      exact Nat.succ_pos _
    -- What is not read is what the scan has left.
    have hrest : rest = stop.left := by
      cases stop with
      | done => cases h; rfl
      | unfinished tail => cases h; rfl
      | invalid bad behind => cases h; rfl
    rw [hrest]
    omega

/-- Fuel beyond the number of bytes changes nothing. So the fuel is never what ends the loop, and
the statements below do not mention it. -/
theorem drainFuel_congr {bytes : List UInt8} {n m : Nat} (hn : bytes.length ≤ n)
    (hm : bytes.length ≤ m) : drainFuel n bytes = drainFuel m bytes := by
  have hnil : ∀ k, drainFuel k [] = ([], []) := fun k => by
    cases k <;> rfl
  induction n generalizing bytes m with
  | zero =>
    obtain rfl := List.eq_nil_of_length_eq_zero (Nat.le_zero.mp hn)
    rw [hnil, hnil]
  | succ n ih =>
    cases m with
    | zero =>
      obtain rfl := List.eq_nil_of_length_eq_zero (Nat.le_zero.mp hm)
      rw [hnil, hnil]
    | succ m =>
      cases hextract : extract bytes with
      | none => simp only [drainFuel, hextract]
      | some pair =>
        obtain ⟨piece, rest⟩ := pair
        -- The rest is shorter, so what fuel is left is enough for it.
        have hlength := length_lt_of_extract hextract
        have hrest : drainFuel n rest = drainFuel m rest := ih (by omega) (by omega)
        simp only [drainFuel, hextract, hrest]

/-- The loop over bytes takes one piece out and goes on with the rest. With this equation in place
of the fuel, an induction can follow the pieces. -/
theorem drain_of_extract {bytes rest : List UInt8} {piece : Piece}
    (h : extract bytes = some (piece, rest)) :
    drain bytes = (piece :: (drain rest).1, (drain rest).2) := by
  have hlength := length_lt_of_extract h
  rw [drain, drainFuel_congr (Nat.le_refl _) (Nat.le_succ bytes.length)]
  simp only [drainFuel, h]
  rw [drainFuel_congr (m := rest.length) (by omega) (Nat.le_refl _)]
  rfl

/-! ### The text of bytes -/

/-- The text that bytes make, damage included. -/
def text (bytes : List UInt8) : List Char := ((drain bytes).1.map Piece.chars).flatten

/-- The bytes at the end that begin a character. -/
def left (bytes : List UInt8) : List UInt8 := (drain bytes).2

/-- Bytes without an invalid sequence: what a scan reads of them is their text, and what it has left
is left over. -/
theorem text_of_valid {bytes : List UInt8} {s : List Char} {stop : Stop}
    (h : scan bytes = (s, stop)) (hvalid : ∀ bad rest, stop ≠ .invalid bad rest) :
    text bytes = s ∧ left bytes = stop.left := by
  rw [text, left, drain_of_scan h hvalid]
  by_cases hs : s = []
  · rw [if_pos hs, hs]
    exact ⟨rfl, rfl⟩
  · rw [if_neg hs]
    exact ⟨List.append_nil s, rfl⟩

/-- An invalid sequence is one replacement character, and reading goes on behind it. With
`text_of_valid` this is the whole decoder, as an equation on the way a scan stops. -/
theorem text_of_invalid {bytes bad rest : List UInt8} {s : List Char}
    (h : scan bytes = (s, .invalid bad rest)) :
    text bytes = s ++ replacement :: text rest ∧ left bytes = left rest := by
  obtain ⟨hagain, -⟩ := scan_of_invalid h
  -- At its second look the decoder finds the sequence in front.
  have hdamage : drain (bad ++ rest) = (.damage bad :: (drain rest).1, (drain rest).2) := by
    refine drain_of_extract ?_
    unfold extract
    rw [hagain]
  -- If nothing stands before the sequence, the first look finds it already.
  cases s with
  | nil =>
    have hdrain : drain bytes = (.damage bad :: (drain rest).1, (drain rest).2) := by
      refine drain_of_extract ?_
      unfold extract
      rw [h]
    rw [text, left, hdrain]
    exact ⟨rfl, rfl⟩
  | cons c s =>
    have hextract : extract bytes = some (.text (c :: s), bad ++ rest) := by
      unfold extract
      rw [h]
    rw [text, left, drain_of_extract hextract, hdamage]
    exact ⟨rfl, rfl⟩

/-- Bytes by how a scan of them stops: there is no invalid sequence, or there is a first one with
shorter bytes behind it. Most proofs about the text of bytes are inductions of this form. -/
theorem scan_induction {motive : List UInt8 → Prop}
    (valid : ∀ bytes s stop, scan bytes = (s, stop) → (∀ bad rest, stop ≠ .invalid bad rest) →
      motive bytes)
    (damage : ∀ bytes s bad rest, scan bytes = (s, .invalid bad rest) → motive rest →
      motive bytes)
    (bytes : List UInt8) : motive bytes := by
  induction hn : bytes.length using Nat.strongRecOn generalizing bytes with
  | ind n ih =>
    subst hn
    obtain ⟨s, stop, hscan⟩ : ∃ s stop, scan bytes = (s, stop) := ⟨_, _, rfl⟩
    cases stop with
    | done => exact valid bytes s _ hscan nofun
    | unfinished tail => exact valid bytes s _ hscan nofun
    | invalid bad rest =>
      -- The invalid sequence has a byte at least, so what is behind it is shorter.
      have hbad := List.length_pos_iff.mpr (ne_nil_of_invalid begun?_none hscan)
      have hlength := congrArg List.length (scan_of_invalid hscan).2
      simp only [List.length_append] at hlength
      exact damage bytes s bad rest hscan (ih rest.length (by omega) rest rfl)

/-- A text in front does not change how a scan stops, nor what comes behind. So the text of the
whole is that text and the text of what is behind it. -/
theorem text_of_scan_eq {whole behind : List UInt8} {s t : List Char} {stop : Stop}
    (hwhole : scan whole = (s ++ t, stop)) (hbehind : scan behind = (t, stop)) :
    text whole = s ++ text behind ∧ left whole = left behind := by
  -- Both scans stop in the same way, and the text behind an invalid sequence is the same.
  cases stop with
  | invalid bad rest =>
    rw [(text_of_invalid hwhole).1, (text_of_invalid hwhole).2, (text_of_invalid hbehind).1,
      (text_of_invalid hbehind).2, List.append_assoc]
    exact ⟨rfl, rfl⟩
  | done =>
    rw [(text_of_valid hwhole nofun).1, (text_of_valid hwhole nofun).2,
      (text_of_valid hbehind nofun).1, (text_of_valid hbehind nofun).2]
    exact ⟨rfl, rfl⟩
  | unfinished tail =>
    rw [(text_of_valid hwhole nofun).1, (text_of_valid hwhole nofun).2,
      (text_of_valid hbehind nofun).1, (text_of_valid hbehind nofun).2]
    exact ⟨rfl, rfl⟩

/-- What is left of the first bytes is read again in front of the next. So bytes may be read in any
portions, as long as what is left is kept. -/
theorem text_append (a b : List UInt8) :
    text (a ++ b) = text a ++ text (left a ++ b) ∧ left (a ++ b) = left (left a ++ b) := by
  induction a using scan_induction with
  | valid a s stop hscan hvalid =>
    -- The scan goes on over the next bytes where it stopped.
    obtain ⟨htext, hleft⟩ := text_of_valid hscan hvalid
    have happend := scanFrom_append begun?_none [] a b
    rw [show scanFrom none [] a = (s, stop) from hscan] at happend
    have hgo : scan (a ++ b) = (s ++ (scan (stop.left ++ b)).1, (scan (stop.left ++ b)).2) := by
      have hread := scanFrom_read none s.reverse (stop.left ++ b)
      rw [List.reverse_reverse] at hread
      refine Eq.trans ?_ hread
      cases stop with
      | invalid bad rest => exact absurd rfl (hvalid bad rest)
      | done => exact happend
      | unfinished tail => exact happend
    rw [htext, hleft]
    exact text_of_scan_eq hgo rfl
  | damage a s bad rest hscan ih =>
    -- It stops where it did before, with more bytes behind.
    have happend := scanFrom_append begun?_none [] a b
    rw [show scanFrom none [] a = (s, .invalid bad rest) from hscan] at happend
    obtain ⟨htext, hleft⟩ := text_of_invalid hscan
    obtain ⟨hwhole, hwhole'⟩ := text_of_invalid (show scan (a ++ b) = _ from happend)
    -- What is behind the invalid sequence is shorter, and the induction is about it.
    rw [hwhole, hwhole', ih.1, ih.2, htext, hleft, List.append_assoc, List.cons_append]
    exact ⟨rfl, rfl⟩

/-- A text in front of other bytes is read as it was written, even if the other bytes are
damaged. -/
theorem text_encode_append (s : List Char) (bytes : List UInt8) :
    text (encode s ++ bytes) = s ++ text bytes ∧ left (encode s ++ bytes) = left bytes := by
  obtain ⟨htext, hleft⟩ := text_of_valid (scan_encode s) nofun
  obtain ⟨happend, happend'⟩ := text_append (encode s) bytes
  rw [happend, happend', htext, hleft]
  exact ⟨rfl, rfl⟩

/-- The bytes of a text make that text: nothing of it is taken for damage. -/
theorem text_encode (s : List Char) : text (encode s) = s := (text_of_valid (scan_encode s) nofun).1

/-- What is left over is no text yet: it waits for the bytes that complete it. -/
theorem text_left (bytes : List UInt8) : text (left bytes) = [] := by
  have h := (text_append bytes []).1
  rw [List.append_nil, List.append_nil] at h
  exact List.self_eq_append_right.mp h

/-! ### Portions -/

/-- However bytes are cut into portions, the pieces make the same text. The hypothesis is about what
a decoder keeps between portions, which is no text yet. -/
theorem text_pushAll {d : Decoder} (hquiet : text d.buffer = []) (portions : List (List UInt8)) :
    ((d.pushAll portions).1.map Piece.chars).flatten = text (d.buffer ++ portions.flatten) := by
  induction portions generalizing d with
  | nil =>
    rw [List.flatten_nil, List.append_nil, hquiet]
    rfl
  | cons portion portions ih =>
    have hnext := ih (d := ⟨left (d.buffer ++ portion)⟩) (text_left _)
    rw [List.flatten_cons, ← List.append_assoc, (text_append _ _).1, ← hnext]
    show (((drain (d.buffer ++ portion)).1 ++ _).map Piece.chars).flatten = _
    rw [List.map_append, List.flatten_append]
    rfl

/-! ### Unfinished sequences -/

/-- What is left over, if anything, is a sequence under way. So it is known what may come behind
it. -/
theorem exists_begun_of_left {bytes : List UInt8} (h : left bytes ≠ []) :
    ∃ p : Partial, p.Begun ∧ p.bytes = left bytes := by
  induction bytes using scan_induction with
  | valid bytes s stop hscan hvalid =>
    have hleft := (text_of_valid hscan hvalid).2
    rw [hleft] at h ⊢
    cases stop with
    | invalid bad rest => exact absurd rfl (hvalid bad rest)
    | done => exact absurd rfl h
    -- Only this way to stop leaves something over.
    | unfinished tail => exact exists_begun_of_unfinished begun?_none hscan
  | damage bytes s bad rest hscan ih =>
    have hleft := (text_of_invalid hscan).2
    rw [hleft] at h ⊢
    exact ih h

/-- An unfinished sequence is damage as soon as a text comes behind it: a character does not
begin with a byte that continues another. -/
theorem text_left_encode {bytes : List UInt8} (h : left bytes ≠ []) {s : List Char}
    (hs : s ≠ []) : text (left bytes ++ encode s) = replacement :: s := by
  obtain ⟨p, hp, hbytes⟩ := exists_begun_of_left h
  obtain ⟨c, s, rfl⟩ := List.exists_cons_of_ne_nil hs
  obtain ⟨b, ranges, more, hc, hfollow, -⟩ := exists_fits_encodeChar c
  -- The first byte of a text is a lead byte, and those do not continue a sequence.
  have hlead : p.next.contains b = false := by
    rw [← Bool.not_eq_true]
    intro hcontains
    have hbounds := hp.continues p.next List.mem_cons_self b hcontains
    rcases followers_cases hfollow with ⟨-, hb⟩ | ⟨-, hb⟩ | ⟨_, -, hb, -⟩ | ⟨_, -, hb, -⟩
    all_goals omega
  -- So the scan stops at the unfinished sequence, and the text is behind it.
  have hscan : scan (left bytes ++ encode (c :: s)) =
      ([], .invalid (left bytes) (encode (c :: s))) := by
    rw [← hbytes, scan, hp.resumes, encode_cons, hc, List.cons_append]
    simp only [scanFrom, hlead, Bool.false_eq_true, if_false, List.reverse_nil]
  rw [(text_of_invalid hscan).1, text_encode]
  rfl

end Decoder

end LanguageClient.Text
