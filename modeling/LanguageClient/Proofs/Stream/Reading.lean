import LanguageClient.Proofs.Text.Lossy
import LanguageClient.Stream

/-!
# `LanguageClient.Proofs.Stream.Reading`: a stream that is read in portions

Bytes arrive in portions, cut anywhere, and after each one the reader takes pieces out of its
buffer until there is none (`Extracts`). `reads_lossily` says what has come of a stream at any
moment: the lossy decoding of the bytes so far, whatever the portions, and in the buffer the
few bytes that may still begin a character. When the stream ends the reader looks once more
for a piece, finds none, and drops those bytes.
-/

set_option autoImplicit false

namespace LanguageClient

namespace Text

/-- The bytes that a piece was cut from. -/
def Piece.bytes : Piece → List UInt8
  | .text s => encode s
  | .damage bytes => bytes

namespace Decoder

open Utf8

/-- The loop of the reader: pieces are taken out of the bytes until there is none. -/
inductive Extracts : List UInt8 → List Piece → List UInt8 → Prop where
  | stop {bytes : List UInt8} (hnone : extract bytes = none) : Extracts bytes [] bytes
  | next {bytes rest left : List UInt8} {piece : Piece} {pieces : List Piece}
      (hsome : extract bytes = some (piece, rest)) (hrest : Extracts rest pieces left) :
      Extracts bytes (piece :: pieces) left

/-- The loop ends, whatever the bytes. The induction is on their number: each piece takes some
of them. -/
theorem extracts_drain (bytes : List UInt8) : Extracts bytes (drain bytes).1 (drain bytes).2 := by
  induction hn : bytes.length using Nat.strongRecOn generalizing bytes with
  | ind n ih =>
    subst hn
    cases hextract : extract bytes with
    | none =>
      -- No piece can be taken. What is left waits for more bytes.
      have hdrain : drain bytes = ([], bytes) := by
        rw [drain, drainFuel_congr (Nat.le_refl _) (Nat.le_succ _)]
        simp only [drainFuel, hextract]
      rw [hdrain]
      exact .stop hextract
    | some taken =>
      obtain ⟨piece, rest⟩ := taken
      rw [drain_of_extract hextract]
      exact .next hextract (ih rest.length (length_lt_of_extract hextract) rest rfl)

/-- A piece is cut off the front, and it has something to say. So no chunk that a reader is given is
empty. -/
theorem bytes_of_extract {bytes rest : List UInt8} {piece : Piece}
    (h : extract bytes = some (piece, rest)) : piece.bytes ++ rest = bytes ∧ piece.chars ≠ [] := by
  obtain ⟨s, stop, hscan⟩ : ∃ s stop, scan bytes = (s, stop) := ⟨_, _, rfl⟩
  have hbytes := bytes_of_scan hscan
  unfold extract at h
  rw [hscan] at h
  cases s with
  | nil =>
    -- Nothing was read, so the piece is the invalid sequence, and it says one replacement
    -- character.
    cases stop with
    | done => exact nomatch h
    | unfinished => exact nomatch h
    | invalid bad behind =>
      cases h
      exact ⟨hbytes.symm, List.cons_ne_nil _ _⟩
  | cons c s =>
    cases stop <;> (cases h; exact ⟨hbytes.symm, List.cons_ne_nil _ _⟩)

variable {bytes rest : List UInt8} {pieces : List Piece}

/-- No byte is lost or made up: the pieces are what stood in front, and the rest is what is
behind. -/
theorem Extracts.bytes_eq (h : Extracts bytes pieces rest) :
    pieces.flatMap Piece.bytes ++ rest = bytes := by
  induction h with
  | stop => rfl
  | next hsome _ ih => rw [List.flatMap_cons, List.append_assoc, ih, (bytes_of_extract hsome).1]

/-- Each piece of the loop says something. -/
theorem Extracts.full (h : Extracts bytes pieces rest) : ∀ piece ∈ pieces, piece.chars ≠ [] := by
  induction h with
  | stop => exact nofun
  | next hsome _ ih => exact List.forall_mem_cons.mpr ⟨(bytes_of_extract hsome).2, ih⟩

/-- When the loop is over there is no piece left to take out. -/
theorem Extracts.extract_rest (h : Extracts bytes pieces rest) : extract rest = none := by
  induction h with
  | stop hnone => exact hnone
  | next _ _ ih => exact ih

/-- What is left over is left over again: the buffer of a decoder holds nothing that could be given
out. -/
theorem left_left (bytes : List UInt8) : left (left bytes) = left bytes := by
  have h := (text_append bytes []).2
  rw [List.append_nil, List.append_nil] at h
  exact h.symm

variable {d : Decoder}

/-- What a decoder holds after portions is left over from all the bytes it was given. So it does not
depend on how they were cut. -/
theorem buffer_pushAll (hd : left d.buffer = d.buffer) (portions : List (List UInt8)) :
    (d.pushAll portions).2.buffer = left (d.buffer ++ portions.flatten) := by
  induction portions generalizing d with
  | nil =>
    rw [List.flatten_nil, List.append_nil, hd]
    rfl
  | cons portion portions ih =>
    show ((d.push portion).2.pushAll portions).2.buffer = _
    rw [ih (left_left _), List.flatten_cons, ← List.append_assoc]
    exact (text_append (d.buffer ++ portion) portions.flatten).2.symm

/-- The pieces of all portions, and what is left, are the bytes in their order. By induction on the
portions: each is put behind what is left, and pieces are taken from the front. -/
theorem conserved_pushAll (d : Decoder) (portions : List (List UInt8)) :
    (d.pushAll portions).1.flatMap Piece.bytes ++ (d.pushAll portions).2.buffer =
      d.buffer ++ portions.flatten := by
  induction portions generalizing d with
  | nil => rw [List.flatten_nil, List.append_nil]; rfl
  | cons portion portions ih =>
    show ((d.push portion).1 ++ ((d.push portion).2.pushAll portions).1).flatMap Piece.bytes ++
      ((d.push portion).2.pushAll portions).2.buffer = _
    rw [List.flatMap_append, List.append_assoc, ih, ← List.append_assoc, List.flatten_cons,
      ← List.append_assoc]
    exact congrArg (· ++ portions.flatten) (extracts_drain (d.buffer ++ portion)).bytes_eq

/-- No portion makes an empty piece, however the bytes are cut. A portion that completes no
character is kept for the next one. -/
theorem full_pushAll (d : Decoder) (portions : List (List UInt8)) :
    ∀ piece ∈ (d.pushAll portions).1, piece.chars ≠ [] := by
  induction portions generalizing d with
  | nil => exact nofun
  | cons portion portions ih =>
    intro piece hpiece
    rcases List.mem_append.mp hpiece with hnow | hlater
    · exact (extracts_drain (d.buffer ++ portion)).full piece hnow
    · exact ih _ piece hlater

end Decoder

/-- Every lossy decoding leaves over the beginning of a character, if anything, and never all of it.
This bounds the buffer: it is shorter than the longest character. -/
theorem Decodes.lacks {bytes tail : List UInt8} {s : List Char} (h : Decodes bytes s tail) :
    ∃ c more, more ≠ [] ∧ String.utf8EncodeChar c = tail ++ more := by
  induction h with
  | done =>
    exact ⟨replacement, String.utf8EncodeChar replacement, String.utf8EncodeChar_ne_nil, rfl⟩
  | unfinished htail => exact htail.lacks
  | character _ _ ih => exact ih
  | damage _ _ ih => exact ih

end Text

namespace Stream

open Text

/-- The stream after portions of bytes have arrived. -/
def readAll (s : Stream) (portions : List (List UInt8)) : Stream :=
  portions.foldl (fun s portion => (s.deliver portion).1) s

/-- The end of the incoming stream, with one more look for a piece before the bytes that are
left are given up. -/
def handleEnd (s : Stream) : Stream × List Notice :=
  if s.reading then
    let (pieces, buffer) :=
      match Decoder.extract s.decoder.buffer with
      | some (piece, rest) => ([piece], rest)
      | none => ([], s.decoder.buffer)
    ({ s with
        reading := false
        decoder := ⟨buffer⟩
        incoming := s.incoming ++ (pieces.map Piece.chars).filter fun chunk => !chunk.isEmpty },
      pieces.flatMap pieceNotices ++ if buffer.isEmpty then [] else [incomplete buffer.length])
  else (s, [])

/-- A stream that is being read does what its decoder does: it keeps the decoder's buffer, and its
chunks are the pieces. So everything about a stream is proved of the decoder. -/
theorem readAll_eq {s : Stream} (hreading : s.reading = true) (portions : List (List UInt8)) :
    s.readAll portions =
      { s with
        decoder := (s.decoder.pushAll portions).2
        incoming := s.incoming ++ (s.decoder.pushAll portions).1.map Piece.chars } := by
  induction portions generalizing s with
  | nil =>
    show s = { s with decoder := s.decoder, incoming := s.incoming ++ [] }
    rw [List.append_nil]
  | cons portion portions ih =>
    have hone : (s.deliver portion).1 =
        { s with
          decoder := (s.decoder.push portion).2
          incoming := s.incoming ++ (s.decoder.push portion).1.map Piece.chars } := by
      rw [deliver, if_pos hreading]
    show (s.deliver portion).1.readAll portions = _
    rw [hone]
    -- The portions behind the first one are taken by the decoder as the first one left it.
    refine Eq.trans (ih (by exact hreading)) ?_
    show _ = ({ s with
      decoder := ((s.decoder.push portion).2.pushAll portions).2
      incoming := s.incoming ++ ((s.decoder.push portion).1 ++
        ((s.decoder.push portion).2.pushAll portions).1).map Piece.chars } : Stream)
    rw [List.map_append, ← List.append_assoc]

/-- What has come of the portions that a stream was read in, at any moment. -/
structure Reads (portions : List (List UInt8)) (s : Stream) : Prop where
  text : Decodes portions.flatten s.incoming.flatten s.decoder.buffer
  /-- It is told by the bytes alone, not by the portions. -/
  only : ∀ t tail, Decodes portions.flatten t tail →
    t = s.incoming.flatten ∧ tail = s.decoder.buffer
  lossy : decodeLossy portions.flatten =
    s.incoming.flatten ++ if s.decoder.buffer.isEmpty then [] else [replacement]
  /-- Each chunk is valid text that stood in the bytes, or stands for an invalid sequence; none
  is empty, and with the buffer they are all the bytes in their order. -/
  pieces : ∃ pieces : List Piece, s.incoming = pieces.map Piece.chars ∧
    (∀ chunk ∈ s.incoming, chunk ≠ []) ∧
    pieces.flatMap Piece.bytes ++ s.decoder.buffer = portions.flatten
  /-- Whatever comes next, the loop over it will end. -/
  ends : ∀ portion, Decoder.Extracts (s.decoder.buffer ++ portion) (s.decoder.push portion).1
    (s.decoder.push portion).2.buffer
  short : s.decoder.buffer.length ≤ 3
  lacks : ∃ c more, more ≠ [] ∧ String.utf8EncodeChar c = s.decoder.buffer ++ more
  /-- The end of the stream makes no chunk, and nothing but the bytes in the buffer is lost. -/
  finish : s.handleEnd = ({ s with reading := false },
    if s.decoder.buffer.isEmpty then [] else [incomplete s.decoder.buffer.length])
  finish_eq : s.handleEnd = s.finish

/-- Whatever the portions, a stream has read the lossy decoding of their bytes and kept the few that
may still begin a character; and at its end it loses these and nothing else. -/
theorem reads_lossily (portions : List (List UInt8)) :
    Reads portions (({} : Stream).readAll portions) := by
  let d := (Decoder.pushAll {} portions).2
  let pieces := (Decoder.pushAll {} portions).1
  have htext : (pieces.map Piece.chars).flatten = Decoder.text portions.flatten :=
    Decoder.text_pushAll rfl portions
  have hleft : d.buffer = Decoder.left portions.flatten := Decoder.buffer_pushAll rfl portions
  have hdecodes : Decodes portions.flatten (pieces.map Piece.chars).flatten d.buffer := by
    rw [htext, hleft]
    exact decodes_text portions.flatten
  -- The loop has come to its end before, so that there is no piece in the buffer.
  have hnone : Decoder.extract d.buffer = none := by
    rw [hleft]
    exact (Decoder.extracts_drain portions.flatten).extract_rest
  rw [readAll_eq rfl]
  show Reads portions { decoder := d, incoming := pieces.map Piece.chars }
  -- So the last look at the end of the stream finds nothing, and the end gives up the buffer only.
  have hend : handleEnd { decoder := d, incoming := pieces.map Piece.chars } =
      ({ decoder := d, incoming := pieces.map Piece.chars, reading := false },
        if d.buffer.isEmpty then [] else [incomplete d.buffer.length]) := by
    unfold handleEnd
    simp [hnone]
  constructor
  case text => exact hdecodes
  case only =>
    intro t tail hother
    rw [htext, hleft]
    exact hother.text_eq
  case lossy =>
    show (Decoder.drain portions.flatten).1.flatMap Piece.chars ++
      (if (Decoder.left portions.flatten).isEmpty then [] else [replacement]) =
      (pieces.map Piece.chars).flatten ++ if d.buffer.isEmpty then [] else [replacement]
    rw [htext, hleft, List.flatMap_def]
    rfl
  case pieces =>
    refine ⟨pieces, rfl, ?_, Decoder.conserved_pushAll {} portions⟩
    intro chunk hchunk
    obtain ⟨piece, hpiece, rfl⟩ := List.mem_map.mp hchunk
    exact Decoder.full_pushAll {} portions piece hpiece
  case ends => exact fun portion => Decoder.extracts_drain (d.buffer ++ portion)
  case short =>
    -- A character has four bytes at most, and what is kept lacks one of them.
    obtain ⟨c, more, hmore, hc⟩ := hdecodes.lacks
    have hlength := congrArg List.length hc
    rw [String.length_utf8EncodeChar, List.length_append] at hlength
    have hfour := c.utf8Size_le_four
    have hpos := List.length_pos_iff.mpr hmore
    show d.buffer.length ≤ 3
    omega
  case lacks => exact hdecodes.lacks
  case finish => exact hend
  case finish_eq => exact hend

end Stream

end LanguageClient
