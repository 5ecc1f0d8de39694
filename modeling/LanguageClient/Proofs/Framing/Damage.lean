import LanguageClient.Proofs.Framing.Remainder
import LanguageClient.Proofs.Text.Damage

/-!
# `LanguageClient.Proofs.Framing.Damage`: a damaged frame and the frames behind it

A header block counts the bytes of a body as they were sent. The framing counts them in the
text that the decoder has made of them, in which three bytes stand for each invalid
sequence, whatever its length. So a body that is not all text has another length than its
header says, and the frames behind it may be lost (`KeepsStep`).

`keepsStep_iff` says for which bodies they are not. The cut after the length named has to
fall between two characters, nothing of a character may be missing at the end of the body,
and what is behind the cut has to be silent. `loses_step_of_quote` is a body of three bytes
for which it does not.
-/

set_option autoImplicit false

namespace LanguageClient.Framing

open Text

/-! ### Frames of bytes -/

/-- A frame as it is sent: the header block names the number of bytes of the body. -/
structure Frame where
  header : List Char
  body : List UInt8
  isHeader : IsHeader header
  length : contentLength header = .ok body.length

namespace Frame

/-- The bytes of a frame, as they stand on the wire. -/
def bytes (f : Frame) : List UInt8 := encode (f.header ++ blankLine) ++ f.body

/-- The frame that is written for a message. -/
def written (message : List Char) (h : byteLength message ≤ maxSize) : Frame where
  header := lengthHeader (byteLength message)
  body := encode message
  isHeader := isHeader_lengthHeader _
  length := by rw [contentLength_lengthHeader h, length_encode]

/-- A frame that is written by the client is sent as the bytes of its text. -/
theorem bytes_written {message : List Char} (h : byteLength message ≤ maxSize) :
    (written message h).bytes = encode (frame message) := by
  rw [frame_eq, encode_append]
  rfl

/-- The header block of a frame ends where the frame says. -/
theorem splitHeader?_header (f : Frame) (t : List Char) :
    splitHeader? (f.header ++ blankLine ++ t) = some (f.header, t) :=
  splitHeader?_append f.isHeader.closed t

/-- A body that is text has the length in the text that its header names in bytes. For a damaged
body the two differ, which is what this module is about. -/
theorem contentLength_of_encode {f : Frame} {message : List Char} (h : f.body = encode message) :
    contentLength f.header = .ok (byteLength message) := by
  rw [f.length, h, length_encode]

/-- The text of a frame with a text behind it. What the body leaves unfinished is read in
front of that text. -/
theorem text_bytes_append (f : Frame) (t : List Char) :
    Decoder.text (f.bytes ++ encode t) = f.header ++ blankLine ++
      (Decoder.text f.body ++ Decoder.text (Decoder.left f.body ++ encode t)) := by
  rw [bytes, List.append_assoc, (Decoder.text_encode_append _ _).1, (Decoder.text_append _ _).1]

/-- The text of a frame alone: what the body leaves unfinished makes no text yet. -/
theorem text_bytes (f : Frame) :
    Decoder.text f.bytes = f.header ++ blankLine ++ Decoder.text f.body := by
  have h := f.text_bytes_append []
  rwa [encode_nil, List.append_nil, List.append_nil, Decoder.text_left, List.append_nil] at h

end Frame

/-! ### Staying in step -/

/-- A body after which the stream is in step: there is one message for it, and the messages of
all frames behind it arrive, however the bytes are cut into portions. -/
def KeepsStep (f : Frame) : Prop :=
  ∀ (frames : List Frame) (messages : List (List Char)),
    frames.map Frame.body = messages.map encode →
    ∀ portions : List (List UInt8), portions.flatten = f.bytes ++ frames.flatMap Frame.bytes →
      ∃ message, ∀ n, results n ((({} : Decoder).pushAll portions).1.map Piece.chars) =
        script (message :: messages) none n

/-- A body whose text can be cut where its bytes end: no character is unfinished, the cut falls
between two characters, and what is behind it is silent. -/
def InStep (body : List UInt8) : Prop :=
  Decoder.left body = [] ∧ ∃ message rest, Decoder.text body = message ++ rest ∧
    byteLength message = body.length ∧ Silent rest

/-- Behind a silent text well-formed frames are read one after another. It is stated for a silent
text, and not for the empty one, since a damaged frame may leave such a text behind. -/
theorem read_behind {rest : List Char} (hrest : Silent rest) {frames : List Frame}
    {messages : List (List Char)} (h : frames.map Frame.body = messages.map encode) :
    ∃ t, frames.flatMap Frame.bytes = encode t ∧ faultOf (rest ++ t) = none ∧
      bodies (rest ++ t) = messages := by
  induction frames generalizing rest messages with
  | nil =>
    obtain rfl := List.map_eq_nil_iff.mp h.symm
    have hwait : nextFrame rest = .ok none := by simp only [nextFrame, hrest.waits]
    obtain ⟨hbodies, hfault, -⟩ := read_of_wait hwait
    exact ⟨[], rfl, by rwa [List.append_nil], by rwa [List.append_nil]⟩
  | cons f frames ih =>
    obtain ⟨message, messages, rfl⟩ := List.exists_cons_of_ne_nil
      (show messages ≠ [] from fun hnil => List.cons_ne_nil _ _ (hnil ▸ h))
    obtain ⟨hbody, hframes⟩ := List.cons.inj h
    obtain ⟨t, hbytes, hfault, hbodies⟩ := ih silent_nil hframes
    -- The silent text is read as a part of the first header block, and after that there is nothing
    -- left of it.
    have hnext := nextFrame_behind hrest f.isHeader (Frame.contentLength_of_encode hbody) t
    obtain ⟨hfirst, hnone, -⟩ := read_of_message hnext
    refine ⟨f.header ++ blankLine ++ (message ++ t), ?_, hnone.trans hfault, ?_⟩
    · rw [List.flatMap_cons, hbytes, Frame.bytes, hbody, encode_append _ (message ++ t),
        encode_append message, List.append_assoc]
    · rw [hfirst]
      exact congrArg (message :: ·) hbodies

/-- The results of calls are messages only exactly if the text of the bytes holds these and no
fault. So being in step can be asked of one text, in place of all its divisions. -/
theorem results_eq_script_iff_read {portions : List (List UInt8)} {messages : List (List Char)} :
    (∀ n, results n ((({} : Decoder).pushAll portions).1.map Piece.chars) =
        script messages none n) ↔
      faultOf (Decoder.text portions.flatten) = none ∧
        bodies (Decoder.text portions.flatten) = messages := by
  have htext := Decoder.text_pushAll (d := {}) rfl portions
  rw [← List.nil_append portions.flatten, ← htext]
  constructor
  · intro h
    obtain ⟨hahead, hfault⟩ := script_injective fun n => (results_eq_script n _).symm.trans (h n)
    exact ⟨hfault, (ahead_of_sound hfault).symm.trans hahead⟩
  · rintro ⟨hfault, hbodies⟩ n
    rw [results_eq_script, ahead_of_sound hfault, hfault, hbodies]

/-- A body whose text can be cut where its bytes end keeps the stream in step: one message is read
for it, and what is behind the cut does no harm to the frames that follow. -/
theorem keepsStep_of_inStep {f : Frame} (h : InStep f.body) : KeepsStep f := by
  obtain ⟨hleft, message, rest, htext, hlength, hsilent⟩ := h
  intro frames messages hframes portions hportions
  refine ⟨message, results_eq_script_iff_read.mpr ?_⟩
  obtain ⟨t, hbytes, hfault, hbodies⟩ := read_behind hsilent hframes
  have hstream : Decoder.text portions.flatten =
      f.header ++ blankLine ++ (message ++ (rest ++ t)) := by
    rw [hportions, hbytes, f.text_bytes_append, hleft, List.nil_append, Decoder.text_encode,
      htext, List.append_assoc message]
  have hnext := nextFrame_of_split (f.splitHeader?_header (message ++ (rest ++ t)))
    (by rw [f.length, hlength])
  rw [← hstream] at hnext
  obtain ⟨hfirst, hnone, -⟩ := read_of_message hnext
  exact ⟨hnone.trans hfault, by rw [hfirst, hbodies]⟩

/-- Text that ends in a character that is not blank is not silent. A replacement character is one,
so a character that was unfinished at the end of the body is damage that shows. -/
theorem not_silent_concat {rest : List Char} {c : Char} (hblank : isBlank c = false)
    (hline : c ≠ '\r') : ¬ Silent (rest ++ [c]) := by
  rintro ⟨-, lines, last, hlines, -, hlast⟩
  have hsingle : splitCrLf [c] = [[c]] :=
    splitCrLf_of_notMem fun hmem => hline (List.mem_singleton.mp hmem).symm
  have hrest : splitCrLf rest = (splitCrLf rest).dropLast ++
      [(splitCrLf rest).getLast (splitCrLf_ne_nil rest)] := (List.dropLast_concat_getLast _).symm
  have hseam : ∀ x ∈ [c].head?, x ≠ '\n' := by
    intro x hx
    obtain rfl := Option.some.inj hx
    rintro rfl
    exact absurd hblank (by decide)
  rw [splitCrLf_behind hrest hsingle hseam] at hlines
  obtain ⟨-, heq⟩ := List.append_inj' hlines rfl
  obtain rfl := List.singleton_inj.mp heq
  have hmem := List.all_eq_true.mp hlast c
    (List.mem_append_right _ (List.mem_singleton.mpr rfl))
  exact nomatch hblank.symm.trans hmem

/-- A body that keeps the stream in step can be cut where its bytes end. Three streams are enough to
see it: the frame alone, and the frame with one of two others behind it. -/
theorem inStep_of_keepsStep {f : Frame} (h : KeepsStep f) : InStep f.body := by
  -- Alone, the frame makes one message; `rest` is what it leaves.
  obtain ⟨message, hresults⟩ := h [] [] rfl [f.bytes] (by simp)
  have hbodies := (results_eq_script_iff_read.mp hresults).2
  rw [List.flatten_singleton, f.text_bytes] at hbodies
  obtain ⟨rest, hnext, -⟩ := exists_nextFrame_of_bodies hbodies
  obtain ⟨header, hsplit, hlength⟩ := nextFrame_eq_message hnext
  rw [f.splitHeader?_header] at hsplit
  obtain ⟨rfl, htext⟩ := Prod.mk.inj (Option.some.inj hsplit)
  rw [f.length] at hlength
  -- In front of a frame stands the rest, and damage if a character was unfinished.
  obtain ⟨gap, hgap, hread⟩ : ∃ gap,
      (Decoder.left f.body = [] ∧ gap = [] ∨ gap = [replacement]) ∧
      ∀ t, t ≠ [] → Decoder.text (Decoder.left f.body ++ encode t) = gap ++ t := by
    by_cases hleft : Decoder.left f.body = []
    · refine ⟨[], .inl ⟨hleft, rfl⟩, fun t _ => ?_⟩
      rw [hleft, List.nil_append, Decoder.text_encode, List.nil_append]
    · exact ⟨[replacement], .inr rfl, fun t ht => Decoder.text_left_encode hleft ht⟩
  have hsilent : Silent (rest ++ gap) := by
    refine silent_of_reads fun m hm => ?_
    have hsize : byteLength m ≤ maxSize := Nat.le_trans hm (by decide)
    obtain ⟨first, hresults⟩ := h [.written m hsize] [m] rfl
      [f.bytes ++ (Frame.written m hsize).bytes] (by simp)
    have hbodies := (results_eq_script_iff_read.mp hresults).2
    rw [List.flatten_singleton, Frame.bytes_written, f.text_bytes_append,
      hread (frame m) (List.cons_ne_nil _ _), ← List.append_assoc,
      (read_of_message (nextFrame_append_message hnext _)).1, ← List.append_assoc] at hbodies
    exact (List.cons.inj hbodies).2
  rcases hgap with ⟨hleft, rfl⟩ | rfl
  · -- Nothing was unfinished, and the cut is where the bytes end.
    rw [List.append_nil] at hsilent
    exact ⟨hleft, message, rest, htext, (Except.ok.inj hlength).symm, hsilent⟩
  · -- Damage in front of a frame would be read with its first line.
    exact absurd hsilent (not_silent_concat (by decide) (by decide))

/-- A damaged frame is one message, and the frames behind it all arrive, exactly if its text can be
cut where its bytes end. The frames behind it and the way the bytes are cut do not matter. -/
theorem keepsStep_iff (f : Frame) : KeepsStep f ↔ InStep f.body :=
  ⟨inStep_of_keepsStep, keepsStep_of_inStep⟩

/-- A sequence of three bytes is replaced by as many. -/
example : InStep [0x22, 0xF0, 0x9F, 0x98, 0x22] :=
  ⟨rfl, ['\x22', replacement, '\x22'], [], rfl, rfl, silent_nil⟩

/-- An invalid byte between two quotes. The text has five bytes where the body had three, and
the third is inside the replacement character, so the frame behind is lost. -/
theorem loses_step_of_quote :
    decode? [0x22, 0xFF, 0x22] = none ∧
      contentLength "Content-Length: 3".toList = .ok [0x22, 0xFF, 0x22].length ∧
      results 2 ((({} : Decoder).pushAll [encode "Content-Length: 3\r\n\r\n".toList ++
          [0x22, 0xFF, 0x22] ++ encode (frame "\x7b\x7d".toList)]).1.map Piece.chars) =
        [.error (.framing (.splitsCharacter 3))] :=
  ⟨rfl, rfl, rfl⟩

end LanguageClient.Framing
