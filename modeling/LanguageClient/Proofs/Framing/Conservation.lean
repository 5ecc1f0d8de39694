import LanguageClient.Proofs.Framing.Offsets
import LanguageClient.Proofs.Framing.Receive
import Mathlib.Data.List.Induction

/-!
# `LanguageClient.Proofs.Framing.Conservation`: nothing of a stream is lost

Whatever text an endpoint has read stands somewhere: in front complete frames (`TextFrame`),
whose bodies have been returned or wait in the queue, then the buffer. The theorems say so for
every course of calls, also behind a fault, and while the source of the chunks comes and goes.

* `exists_frames`: a text is its messages, each in its frame, and what is unread.
* `Yields`: what reading chunks does to a framing; `Yields.trans` puts two readings together,
  and `yields_receive` is the reading of one call.
* `Stuck`: a faulty text in front of the buffer. No call gets past it (`Stuck.receive`), and
  a call that needs a chunk and gets one returns its fault (`Stuck.receive_eq`).
* `conserved`: both together, for every sequence of moves at an endpoint. The buffer is read by
  positions, and `frameAt?_encode` says that none of them is off.
-/

set_option autoImplicit false

namespace LanguageClient.Framing

open Text

/-! ### Complete frames -/

/-- A header block, up to the first empty line, has none. So a frame of a text cannot be read as
two, and the account of the text is the only one. -/
theorem not_infix_of_splitHeader? {s header rest : List Char}
    (h : splitHeader? s = some (header, rest)) : ¬ blankLine <:+: header := by
  fun_induction splitHeader? s generalizing header rest with
  | case1 s =>
    cases h
    exact fun hinfix => absurd (List.infix_nil.mp hinfix) (by decide)
  | case2 c s hfirst ih =>
    obtain ⟨⟨header, rest⟩, hs, hcons⟩ := Option.map_eq_some_iff.mp h
    cases hcons
    intro hinfix
    rcases List.infix_cons_iff.mp hinfix with ⟨t, ht⟩ | hinfix
    · -- Then the text would begin with an empty line.
      obtain ⟨hc, hheader⟩ := List.cons.inj ht
      refine hfirst (t ++ blankLine ++ rest) hc.symm ?_
      rw [eq_of_splitHeader? hs, ← hheader]
      simp
    · exact ih hs hinfix
  | case3 => cases h

/-- A complete message as it stands in a text. -/
structure TextFrame where
  header : List Char
  body : List Char
  /-- The empty line behind the header block is the first one. -/
  closed : splitHeader? (header ++ blankLine) = some (header, [])
  length : contentLength header = .ok (byteLength body)

namespace TextFrame

/-- The characters of a frame, as they stand in a text. -/
def text (f : TextFrame) : List Char := f.header ++ blankLine ++ f.body

/-- A frame is the first message of a text that begins with it. -/
theorem nextFrame_text (f : TextFrame) (t : List Char) :
    nextFrame (f.text ++ t) = .ok (some (f.body, t)) := by
  refine nextFrame_of_split ?_ f.length
  rw [text, List.append_assoc]
  exact splitHeader?_append f.closed (f.body ++ t)

/-- The first message of a text has a frame: the header block in front of it, the empty line and
itself. The header is closed by its own empty line, so the frame can be taken by itself. -/
theorem exists_of_nextFrame {s body rest : List Char}
    (h : nextFrame s = .ok (some (body, rest))) :
    ∃ f : TextFrame, f.body = body ∧ s = f.text ++ rest := by
  obtain ⟨header, hsplit, hlength⟩ := nextFrame_eq_message h
  have hs := eq_of_splitHeader? hsplit
  have hclosed : splitHeader? (header ++ blankLine) = some (header, []) := by
    rw [hs] at hsplit
    exact splitHeader?_of_append hsplit
  refine ⟨⟨header, body, hclosed, hlength⟩, rfl, ?_⟩
  rw [hs, text, ← List.append_assoc]

end TextFrame

/-- A text is its messages, each in its frame, and what is unread. By induction on the messages, so
that a fault ends the frames wherever it comes. -/
theorem exists_frames (s : List Char) :
    ∃ frames : List TextFrame, s = frames.flatMap TextFrame.text ++ unread s ∧
      frames.map TextFrame.body = bodies s := by
  induction s using frames_induction with
  | wait s h =>
    obtain ⟨hbodies, -, hunread⟩ := read_of_wait h
    exact ⟨[], hunread.symm, hbodies.symm⟩
  | fault s e h =>
    obtain ⟨hbodies, -, hunread⟩ := read_of_fault h
    exact ⟨[], hunread.symm, hbodies.symm⟩
  | message s body rest h ih =>
    obtain ⟨hbodies, -, hunread⟩ := read_of_message h
    obtain ⟨f, hf, hs⟩ := TextFrame.exists_of_nextFrame h
    obtain ⟨frames, htext, hframes⟩ := ih
    refine ⟨f :: frames, ?_, ?_⟩
    · rw [List.flatMap_cons, List.append_assoc, hunread, ← htext, hs]
    · rw [List.map_cons, hf, hframes, hbodies]

/-- Behind frames reading goes on with what follows them. By induction on the frames, each of which
is read as its message. So a text can be cut at the end of any frame. -/
theorem read_frames_append (frames : List TextFrame) (t : List Char) :
    bodies (frames.flatMap TextFrame.text ++ t) = frames.map TextFrame.body ++ bodies t ∧
      faultOf (frames.flatMap TextFrame.text ++ t) = faultOf t ∧
      unread (frames.flatMap TextFrame.text ++ t) = unread t := by
  induction frames with
  | nil => exact ⟨rfl, rfl, rfl⟩
  | cons f frames ih =>
    rw [List.flatMap_cons, List.append_assoc]
    obtain ⟨hbodies, hfault, hunread⟩ :=
      read_of_message (f.nextFrame_text (frames.flatMap TextFrame.text ++ t))
    rw [hbodies, hfault, hunread, ih.1]
    exact ⟨rfl, ih.2⟩

/-! ### What reading does to a framing -/

/-- Reading chunks and returning messages takes one framing to another, and nothing is lost:
complete frames have left the text, and their bodies have passed through the queue. -/
def Yields (f : Framing) (taken returned : List (List Char)) (after : Framing) : Prop :=
  ∃ frames : List TextFrame,
    f.buffer ++ taken.flatten = frames.flatMap TextFrame.text ++ after.buffer ∧
      f.queue ++ frames.map TextFrame.body = returned ++ after.queue

/-- Nothing read and nothing returned changes nothing. -/
theorem Yields.refl (f : Framing) : Yields f [] [] f := ⟨[], by simp, by simp⟩

/-- Two readings are one: the frames of the first are in front of those of the second. So an account
of a call is an account of any number of calls. -/
theorem Yields.trans {f g h : Framing} {taken taken' returned returned' : List (List Char)}
    (hfg : Yields f taken returned g) (hgh : Yields g taken' returned' h) :
    Yields f (taken ++ taken') (returned ++ returned') h := by
  obtain ⟨frames, htext, hbodies⟩ := hfg
  obtain ⟨frames', htext', hbodies'⟩ := hgh
  refine ⟨frames ++ frames', ?_, ?_⟩
  · rw [List.flatten_append, ← List.append_assoc, htext, List.append_assoc, htext',
      List.flatMap_append, List.append_assoc]
  · rw [List.map_append, ← List.append_assoc, hbodies, List.append_assoc, hbodies',
      List.append_assoc]

/-- A chunk is read, with or without a fault. -/
theorem yields_push (f : Framing) (chunk : List Char) : Yields f [chunk] [] (f.push chunk).2 := by
  obtain ⟨frames, htext, hbodies⟩ := exists_frames (f.buffer ++ chunk)
  rw [push_eq]
  refine ⟨frames, ?_, ?_⟩
  · rw [List.flatten_singleton]
    exact htext
  · rw [hbodies]
    rfl

/-- The first message of the queue is returned. -/
theorem yields_pop {f : Framing} {body : List Char} {queue : List (List Char)}
    (h : f.queue = body :: queue) : Yields f [] [body] { f with queue } :=
  ⟨[], by simp, by simp [h]⟩

/-- The messages that a call returns. -/
def Reception.returned : Reception → List (List Char)
  | .message body => [body]
  | _ => []

/-- A call reads the first of the chunks, and returns a message or none. The cases are those of the
call: a message in the queue, no chunk, a chunk with a fault and one without. -/
theorem yields_receive (f : Framing) (chunks : List (List Char)) :
    ∃ taken, chunks = taken ++ (f.receive chunks).2.2 ∧
      Yields f taken (f.receive chunks).1.returned (f.receive chunks).2.1 := by
  fun_induction Framing.receive f chunks with
  | case1 f body queue hqueue => exact ⟨[], rfl, yields_pop hqueue⟩
  | case2 f hqueue => exact ⟨[], rfl, .refl f⟩
  | case3 f chunk chunks body queue hqueue => exact ⟨[], rfl, yields_pop hqueue⟩
  | case4 f chunk chunks hqueue e after hpush =>
    -- The chunk is read although the call fails; its text stays in the buffer.
    have hchunk := yields_push f chunk
    rw [hpush] at hchunk
    exact ⟨[chunk], rfl, hchunk⟩
  | case5 f chunk chunks hqueue after hpush ih =>
    have hchunk := yields_push f chunk
    rw [hpush] at hchunk
    -- The call reads this chunk and goes on with the others.
    obtain ⟨taken, htaken, hyields⟩ := ih
    refine ⟨chunk :: taken, ?_, hchunk.trans hyields⟩
    rw [List.cons_append, ← htaken]

/-! ### A fault in front -/

/-- A text that shows a fault stands in front of the buffer. -/
structure Stuck (fault : FramingError) (text : List Char) (f : Framing) : Prop where
  faulty : nextFrame text = .error fault
  front : text <+: f.buffer

/-- What is left of a faulty text begins with the fault. The messages in front of it have gone, and
nothing behind it was read. -/
theorem nextFrame_unread_of_fault {s : List Char} {fault : FramingError}
    (h : faultOf s = some fault) : nextFrame (unread s) = .error fault := by
  induction s using frames_induction with
  | wait s hnext => exact nomatch h ▸ (read_of_wait hnext).2.1
  | fault s e hnext =>
    obtain ⟨-, hfault, hunread⟩ := read_of_fault hnext
    obtain rfl : e = fault := Option.some.inj (hfault.symm.trans h)
    rw [hunread]
    exact hnext
  | message s body rest hnext ih =>
    obtain ⟨-, hfault, hunread⟩ := read_of_message hnext
    rw [hunread]
    exact ih (hfault ▸ h)

/-- A call that fails leaves the faulty text in front. The chunk is in the buffer, from the fault
on. -/
theorem stuck_of_failed {f : Framing} {chunks : List (List Char)} {fault : FramingError}
    (h : (f.receive chunks).1 = .failed fault) :
    Stuck fault (f.receive chunks).2.1.buffer (f.receive chunks).2.1 := by
  fun_induction Framing.receive f chunks with
  | case1 f body queue hqueue => cases h
  | case2 f hqueue => cases h
  | case3 f chunk chunks body queue hqueue => cases h
  | case4 f chunk chunks hqueue e after hpush =>
    obtain rfl := Reception.failed.inj h
    rw [push_eq] at hpush
    obtain ⟨hfault, rfl⟩ := Prod.mk.inj hpush
    exact ⟨nextFrame_unread_of_fault hfault, List.prefix_rfl⟩
  | case5 f chunk chunks hqueue after hpush ih => exact ih h

namespace Stuck

variable {f : Framing} {fault : FramingError} {text : List Char}

/-- A further chunk stands behind the fault, and shows it again. -/
theorem push_eq_fault (h : Stuck fault text f) (chunk : List Char) :
    f.push chunk = (some fault, { f with buffer := f.buffer ++ chunk }) := by
  obtain ⟨rest, hrest⟩ := h.front
  have hnext : nextFrame (f.buffer ++ chunk) = .error fault := by
    rw [← hrest, List.append_assoc]
    exact nextFrame_append_error h.faulty (rest ++ chunk)
  obtain ⟨hbodies, hfault, hunread⟩ := read_of_fault hnext
  rw [push_eq, hbodies, hfault, hunread, List.append_nil]

/-- A call that has to read and gets a chunk returns the fault. -/
theorem receive_eq (h : Stuck fault text f) (hqueue : f.queue = []) (chunk : List Char)
    (chunks : List (List Char)) : f.receive (chunk :: chunks) =
      (.failed fault, { f with buffer := f.buffer ++ chunk }, chunks) := by
  simp only [Framing.receive, hqueue, h.push_eq_fault]

/-- No call gets past the fault. A call may still return messages that were queued before, and it
may read chunks, which join the buffer at its end. -/
theorem receive (h : Stuck fault text f) (chunks : List (List Char)) :
    Stuck fault text (f.receive chunks).2.1 := by
  fun_cases Framing.receive f chunks with
  | case1 body queue hqueue => exact ⟨h.faulty, h.front⟩
  | case2 hqueue => exact h
  | case3 chunk chunks body queue hqueue => exact ⟨h.faulty, h.front⟩
  | case4 chunk chunks hqueue e after hpush =>
    rw [h.push_eq_fault] at hpush
    obtain ⟨-, rfl⟩ := Prod.mk.inj hpush
    exact ⟨h.faulty, h.front.trans (List.prefix_append _ _)⟩
  | case5 chunk chunks hqueue after hpush =>
    rw [h.push_eq_fault] at hpush
    cases hpush

end Stuck

/-! ### Calls at an endpoint -/

/-- What can happen at an endpoint: a call, or something at the source of its chunks, which
may hold others from then on, and be lost or there again. -/
inductive Move where
  | source (incoming : List (List Char)) (connected : Bool)
  | receive
  | send (message : List Char)
  | close
  deriving DecidableEq, Repr

/-- An endpoint, the chunks it has read and the messages it has returned. -/
structure History where
  endpoint : Endpoint := {}
  taken : List (List Char) := []
  returned : List (List Char) := []
  deriving DecidableEq, Repr

namespace History

/-- A move. What a call reads is missing from the source after it. -/
def move (h : History) : Move → History
  | .source incoming connected => { h with endpoint := { h.endpoint with incoming, connected } }
  | .receive =>
    let (result, endpoint) := h.endpoint.receive
    let count := h.endpoint.incoming.length - endpoint.incoming.length
    { endpoint
      taken := h.taken ++ h.endpoint.incoming.take count
      returned := h.returned ++ result.toOption.toList }
  | .send message => { h with endpoint := (h.endpoint.send message).2 }
  | .close => { h with endpoint := h.endpoint.close }

end History

/-- A fresh endpoint after some moves. -/
def ran (moves : List Move) : History := moves.foldl History.move {}

/-- A call reads the first chunks of the source, and they are accounted for. It is the statement for
the framing, with the source as the endpoint has it. -/
theorem Endpoint.yields_receive (e : Endpoint) :
    ∃ taken, e.incoming = taken ++ e.receive.2.incoming ∧
      Yields e.framing taken e.receive.1.toOption.toList e.receive.2.framing := by
  obtain ⟨taken, htaken, hyields⟩ :=
    Framing.yields_receive e.framing (if e.connected then e.incoming else [])
  rcases hreceive : e.framing.receive (if e.connected then e.incoming else []) with
    ⟨reception, framing, rest⟩
  rw [hreceive] at htaken hyields
  have hincoming : e.incoming = taken ++ (if e.connected then rest else e.incoming) := by
    cases hconnected : e.connected with
    | true =>
      rw [hconnected] at htaken
      exact htaken
    | false =>
      -- A source that is lost gives no chunk.
      rw [hconnected] at htaken
      obtain ⟨rfl, -⟩ := List.append_eq_nil_iff.mp htaken.symm
      rfl
  simp only [Endpoint.receive, hreceive]
  cases reception with
  | message body => exact ⟨taken, hincoming, hyields⟩
  | failed fault => exact ⟨taken, hincoming, hyields⟩
  | exhausted => exact ⟨taken, hincoming, hyields⟩

/-- A call of an endpoint that fails leaves the faulty text in front, as for its framing. A lost
source is another error, and does not count as a fault. -/
theorem Endpoint.stuck_of_failed {e : Endpoint} {fault : FramingError}
    (h : e.receive.1 = .error (.framing fault)) :
    Stuck fault e.receive.2.framing.buffer e.receive.2.framing := by
  rcases hreceive : e.framing.receive (if e.connected then e.incoming else []) with
    ⟨reception, framing, rest⟩
  simp only [Endpoint.receive, hreceive] at h ⊢
  cases reception with
  | message body => cases h
  | failed e' =>
    cases h
    have hstuck := Framing.stuck_of_failed (congrArg Prod.fst hreceive)
    rwa [hreceive] at hstuck
  | exhausted =>
    -- No fault comes of a source without chunks, whether it is lost or not.
    cases hconnected : e.connected with
    | true =>
      rw [hconnected] at h
      cases h
    | false =>
      rw [hconnected] at h
      cases h

namespace History

/-- What has been read is in frames and the buffer after every move. Only a call that receives
touches the framing. -/
theorem yields_move {h : History} (hyields : Yields {} h.taken h.returned h.endpoint.framing)
    (m : Move) :
    Yields {} (h.move m).taken (h.move m).returned (h.move m).endpoint.framing := by
  cases m with
  | source incoming connected => exact hyields
  | receive =>
    obtain ⟨taken, htaken, hcall⟩ := h.endpoint.yields_receive
    -- What a call reads is what is missing from the source afterwards.
    have hcount : h.endpoint.incoming.take
        (h.endpoint.incoming.length - h.endpoint.receive.2.incoming.length) = taken := by
      rw [htaken, List.length_append, Nat.add_sub_cancel, List.take_left]
    have hmove := hyields.trans hcall
    rw [← hcount] at hmove
    exact hmove
  | send message =>
    simp only [move, Endpoint.send]
    split
    · exact hyields
    · exact hyields
  | close => exact hyields

/-- No move gets past a fault, not even one that closes the endpoint or takes its source away. Only
receiving looks at the buffer, and it finds the same fault there. -/
theorem stuck_move {h : History} {fault : FramingError} {text : List Char}
    (hstuck : Stuck fault text h.endpoint.framing) (m : Move) :
    Stuck fault text (h.move m).endpoint.framing := by
  cases m with
  | source incoming connected => exact hstuck
  | receive =>
    have hcall := hstuck.receive (if h.endpoint.connected then h.endpoint.incoming else [])
    simp only [move, Endpoint.receive]
    split
    · exact hcall
    · exact hcall
    · exact hcall
  | send message =>
    simp only [move, Endpoint.send]
    split
    · exact hstuck
    · exact hstuck
  | close => exact hstuck

end History

/-- The last move of a course happens to what the others have made. -/
theorem ran_concat (moves : List Move) (m : Move) : ran (moves ++ [m]) = (ran moves).move m := by
  rw [ran, List.foldl_append]
  rfl

/-- Nothing of what was read is lost in any course of moves. -/
theorem yields_ran (moves : List Move) :
    Yields {} (ran moves).taken (ran moves).returned (ran moves).endpoint.framing := by
  induction moves using List.reverseRecOn with
  | nil => exact .refl {}
  | append_singleton moves m ih =>
    rw [ran_concat]
    exact History.yields_move ih m

/-- What was in front of the buffer after a failed call stays there, through all moves that
follow. -/
theorem stuck_ran {before : List Move} {fault : FramingError}
    (h : (ran before).endpoint.receive.1 = .error (.framing fault)) (after : List Move) :
    Stuck fault (ran before).endpoint.receive.2.framing.buffer
      (ran (before ++ .receive :: after)).endpoint.framing := by
  induction after using List.reverseRecOn with
  | nil =>
    rw [ran_concat]
    exact Endpoint.stuck_of_failed h
  | append_singleton after m ih =>
    rw [← List.cons_append, ← List.append_assoc, ran_concat]
    exact History.stuck_move ih m

/-- A call at a faulty text that has to read and gets a chunk fails with the same fault. -/
theorem Endpoint.receive_of_stuck {e : Endpoint} {fault : FramingError} {text : List Char}
    (h : Stuck fault text e.framing) (hqueue : e.framing.queue = [])
    (hconnected : e.connected = true) (hincoming : e.incoming ≠ []) :
    e.receive.1 = .error (.framing fault) := by
  obtain ⟨chunk, chunks, hchunks⟩ := List.exists_cons_of_ne_nil hincoming
  simp only [Endpoint.receive, hconnected, if_true, hchunks, h.receive_eq hqueue]

/-- What an endpoint keeps through some moves, whatever its calls return. -/
structure Conserves (moves : List Move) : Prop where
  /-- The text that was read is complete frames, then the buffer; their bodies are the messages
  that were returned, then the queue. -/
  text : ∃ frames : List TextFrame,
    (ran moves).taken.flatten =
        frames.flatMap TextFrame.text ++ (ran moves).endpoint.framing.buffer ∧
      frames.map TextFrame.body = (ran moves).returned ++ (ran moves).endpoint.framing.queue ∧
      ∀ f ∈ frames, ¬ blankLine <:+: f.header
  /-- Once a call has failed with a fault, the faulty text stays in front of the buffer, and a
  call that has to read and gets a chunk fails with the same fault. -/
  fault : ∀ before after e, moves = before ++ .receive :: after →
    (ran before).endpoint.receive.1 = .error (.framing e) →
      Stuck e (ran before).endpoint.receive.2.framing.buffer (ran moves).endpoint.framing ∧
        ((ran moves).endpoint.framing.queue = [] → (ran moves).endpoint.connected = true →
          (ran moves).endpoint.incoming ≠ [] →
            (ran moves).endpoint.receive.1 = .error (.framing e))

/-- An endpoint loses nothing of what it has read, whatever arrives and whatever its calls return;
and whatever the buffer holds, none of the positions at which it is cut is off. The second part is
about the buffer as bytes, and so about every buffer that an endpoint can have. -/
theorem conserved (moves : List Move) (buffer : List Char) :
    Conserves moves ∧ frameAt? (encode buffer) = some (inBytes (nextFrame buffer)) where
  left :=
    { text := by
        obtain ⟨frames, htext, hbodies⟩ := yields_ran moves
        exact ⟨frames, htext, hbodies, fun f _ => not_infix_of_splitHeader? f.closed⟩
      fault := by
        rintro before after e rfl h
        have hstuck := stuck_ran h after
        exact ⟨hstuck, Endpoint.receive_of_stuck hstuck⟩ }
  right := frameAt?_encode buffer

end LanguageClient.Framing
