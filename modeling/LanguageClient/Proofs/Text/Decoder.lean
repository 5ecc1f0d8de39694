import LanguageClient.Proofs.Text.Utf8
import LanguageClient.Text.Decoder

/-!
# `LanguageClient.Proofs.Text.Decoder`: a text that arrives in portions

The bytes of a text reach a decoder in portions that are cut anywhere.
`Decoder.pushAll` takes the portions in, one after another, and
`pushAll_of_encode` says what comes out: pieces that are never empty and that put
together are the text, and at the end nothing is left in the buffer.

The invariant of the induction on the portions is about the buffer between two of
them. It is quiet: it holds no whole character (`(scan d.buffer).1 = []`), and
with the portions to come it makes up the bytes of the text that is still to be
given out.
-/

set_option autoImplicit false

namespace LanguageClient.Text

namespace Decoder

open Utf8

/-- Take in portions of a stream, one after another. -/
def pushAll (d : Decoder) : List (List UInt8) → List Piece × Decoder
  | [] => ([], d)
  | portion :: portions =>
    let (pieces, d) := d.push portion
    let (more, d) := d.pushAll portions
    (pieces ++ more, d)

/-- The bytes of a text in part: all whole characters come out as one piece, if
there are any, and an unfinished one stays. -/
theorem drain_of_scan {bytes : List UInt8} {s : List Char} {stop : Stop}
    (hscan : scan bytes = (s, stop)) (hvalid : ∀ bad rest, stop ≠ .invalid bad rest) :
    drain bytes = (if s = [] then [] else [.text s], stop.left) := by
  have hextract : extract bytes = if s = [] then none else some (.text s, stop.left) := by
    unfold extract
    rw [hscan]
    cases stop with
    | invalid bad rest => exact absurd rfl (hvalid bad rest)
    | done => cases s <;> rfl
    | unfinished tail => cases s <;> rfl
  have hleft : s = [] → bytes = stop.left := by
    rintro rfl
    have h := encode_append_left begun?_none [] bytes
    rw [show scanFrom none [] bytes = ([], stop) from hscan] at h
    exact h.symm
  -- What is left holds no whole character, so a second extraction finds nothing.
  have hquiet : extract stop.left = none := by
    cases stop with
    | invalid bad rest => exact absurd rfl (hvalid bad rest)
    | done => rfl
    | unfinished tail =>
      unfold extract
      rw [show scan (Stop.unfinished tail).left = _ from (scan_of_unfinished hscan).1]
  have hend : ∀ fuel, drainFuel fuel stop.left = ([], stop.left) := by
    intro fuel
    cases fuel with
    | zero => rfl
    | succ fuel => simp only [drainFuel, hquiet]
  by_cases hs : s = []
  · rw [if_pos hs, drain, hleft hs]
    exact hend _
  · rw [if_neg hs] at hextract ⊢
    cases bytes with
    | nil => exact absurd (congrArg Prod.fst hscan.symm) hs
    | cons b rest =>
      show drainFuel (rest.length + 1) (b :: rest) = _
      simp only [drainFuel, hextract, hend]

/-- The bytes of a text, portion by portion: the pieces are never empty, put
together they are the text, and nothing stays in the buffer. -/
theorem pushAll_of_encode (portions : List (List UInt8)) {d : Decoder} {s : List Char}
    (hquiet : (scan d.buffer).1 = []) (hstream : d.buffer ++ portions.flatten = encode s) :
    ∃ pieces, d.pushAll portions = (pieces, {}) ∧ (pieces.map Piece.chars).flatten = s ∧
      ∀ piece ∈ pieces, piece.chars ≠ [] := by
  induction portions generalizing d s with
  | nil =>
    rw [List.flatten_nil, List.append_nil] at hstream
    rw [hstream, scan_encode] at hquiet
    subst hquiet
    refine ⟨[], ?_, rfl, fun _ h => nomatch h⟩
    show ([], d) = ([], ({} : Decoder))
    rw [← show d.buffer = [] from hstream]
  | cons portion portions ih =>
    rw [List.flatten_cons, ← List.append_assoc] at hstream
    obtain ⟨t, u, stop, hscan, hvalid, rfl, hrest⟩ := scan_of_append_eq_encode hstream
    have hpush : d.push portion = (if t = [] then [] else [.text t], ⟨stop.left⟩) := by
      simp only [push, drain_of_scan hscan hvalid]
    -- The invariant for the portions to come: what is kept is no whole character.
    have hnext : (scan stop.left).1 = [] := by
      cases stop with
      | invalid bad rest => exact absurd rfl (hvalid bad rest)
      | done => rfl
      | unfinished tail => exact congrArg Prod.fst (scan_of_unfinished hscan).1
    obtain ⟨pieces, hpieces, htext, hfull⟩ := ih (d := ⟨stop.left⟩) hnext hrest
    refine ⟨(if t = [] then [] else [.text t]) ++ pieces, ?_, ?_, ?_⟩
    · simp only [pushAll, hpush, hpieces]
    · rw [List.map_append, List.flatten_append, htext]
      split
      · rename_i ht
        rw [ht]
        rfl
      · simp [Piece.chars]
    · intro piece hpiece
      rcases List.mem_append.mp hpiece with h | h
      · split at h
        · exact nomatch h
        · obtain rfl := List.mem_singleton.mp h
          assumption
      · exact hfull piece h

end Decoder

end LanguageClient.Text
