import LanguageClient.Proofs.Framing.Receive
import LanguageClient.Proofs.Text.Decoder

/-!
# `LanguageClient.Proofs.Framing.RoundTrip`: written messages arrive

Messages are written as frames, the frames travel as bytes, and the bytes arrive in
portions that are cut anywhere: in a header, in the empty line, inside a character.
`Decoder.pushAll` makes pieces of text of them, and an endpoint reads the pieces.
`round_trip` says that the messages come out in order, and that neither the decoder
nor the endpoint keeps anything.

The invariant between two calls is `Endpoint.Carries`: the queue, and the frames that
the buffer and the chunks to come make up, are the messages still to be received.
`receive_of_carries` is the step and `receiveMany_of_carries` the run.
-/

set_option autoImplicit false

namespace LanguageClient.Framing

open Text

/-! ### Writing -/

/-- Write messages, one after another. -/
def Endpoint.sendAll (e : Endpoint) (messages : List (List Char)) : Endpoint :=
  messages.foldl (fun e message => (e.send message).2) e

/-- Messages are written as frames, one behind the other, if the endpoint is there. By induction on
the messages; sending one leaves the endpoint connected for the others. -/
theorem sendAll_of_connected {e : Endpoint} (h : e.connected = true)
    (messages : List (List Char)) :
    e.sendAll messages = { e with written := e.written ++ messages.map frame } := by
  induction messages generalizing e with
  | nil => simp [Endpoint.sendAll]
  | cons message messages ih =>
    have hsend : (e.send message).2 = { e with written := e.written ++ [frame message] } := by
      simp only [Endpoint.send, h, if_true]
    have hcons : e.sendAll (message :: messages) = (e.send message).2.sendAll messages := rfl
    have hrest := ih (e := { e with written := e.written ++ [frame message] }) h
    rw [hcons, hsend, hrest]
    simp

/-! ### Reading -/

/-- The text in front of a cut through written messages holds the messages before the cut, and what
is left of it begins the ones behind it. The cut may be anywhere, so this is all that is needed
about one chunk. -/
theorem read_frames {messages : List (List Char)} {front rest : List Char}
    (hsize : ∀ m ∈ messages, byteLength m ≤ maxSize)
    (h : front ++ rest = messages.flatMap frame) :
    ∃ todo, messages = bodies front ++ todo ∧ faultOf front = none ∧
      unread front ++ rest = todo.flatMap frame := by
  induction messages generalizing front with
  | nil =>
    obtain ⟨rfl, rfl⟩ := List.append_eq_nil_iff.mp h
    exact ⟨[], rfl, rfl, rfl⟩
  | cons message messages ih =>
    have hmessage := hsize message List.mem_cons_self
    have hmessages : ∀ m ∈ messages, byteLength m ≤ maxSize := fun m hm =>
      hsize m (List.mem_cons_of_mem message hm)
    rw [List.flatMap_cons] at h
    -- The cut is inside the first frame or behind it.
    have hcut : (∃ part, frame message = front ++ part ∧ part ≠ []) ∨
        ∃ behind, front = frame message ++ behind ∧
          messages.flatMap frame = behind ++ rest := by
      rcases List.append_eq_append_iff.mp h with ⟨part, hpart, hrest⟩ | hbehind
      · by_cases hnil : part = []
        · subst hnil
          exact .inr ⟨[], by rw [hpart, List.append_nil, List.append_nil], hrest.symm⟩
        · exact .inl ⟨part, hpart, hnil⟩
      · exact .inr hbehind
    rcases hcut with ⟨part, hpart, hne⟩ | ⟨behind, rfl, hbehind⟩
    · -- The cut is inside the first frame: nothing is complete yet.
      have hwait := nextFrame_frame_part hmessage hpart.symm hne
      obtain ⟨hbodies, hfault, hunread⟩ := read_of_wait hwait
      refine ⟨message :: messages, ?_, hfault, ?_⟩
      · rw [hbodies, List.nil_append]
      · rw [hunread, h, List.flatMap_cons]
    · -- The first frame is complete, and the cut goes through what is behind it.
      obtain ⟨todo, htodo, hsound, hrest⟩ := ih hmessages hbehind.symm
      obtain ⟨hbodies, hfault, hunread⟩ := read_of_message (nextFrame_frame hmessage behind)
      refine ⟨todo, ?_, ?_, ?_⟩
      · rw [hbodies, List.cons_append, ← htodo]
      · rw [hfault, hsound]
      · rw [hunread, hrest]

/-- What an endpoint still has to give out, between two calls. -/
structure Endpoint.Carries (e : Endpoint) (messages : List (List Char)) : Prop where
  connected : e.connected = true
  /-- What waits is no whole frame. -/
  waits : nextFrame e.framing.buffer = .ok none
  full : ∀ chunk ∈ e.incoming, chunk ≠ []
  stream : ∃ todo, messages = e.framing.queue ++ todo ∧
    (∀ m ∈ todo, byteLength m ≤ maxSize) ∧
    e.framing.buffer ++ e.incoming.flatten = todo.flatMap frame

/-- An endpoint with nothing to give out has nothing left. No chunk is empty, so a text without
characters has no chunks. -/
theorem eq_of_carries_nil {e : Endpoint} (h : e.Carries []) :
    e.framing = {} ∧ e.incoming = [] := by
  obtain ⟨-, -, hfull, todo, hnil, -, hstream⟩ := h
  obtain ⟨hqueue, rfl⟩ := List.append_eq_nil_iff.mp hnil.symm
  obtain ⟨hbuffer, hflatten⟩ := List.append_eq_nil_iff.mp hstream
  -- A chunk that is left would hold a character, and there is no text left for it.
  have hincoming : e.incoming = [] := by
    cases hcase : e.incoming with
    | nil => rfl
    | cons chunk chunks =>
      rw [hcase, List.flatten_cons] at hflatten
      have hmem : chunk ∈ e.incoming := hcase ▸ List.mem_cons_self
      exact absurd (List.append_eq_nil_iff.mp hflatten).1 (hfull chunk hmem)
  refine ⟨?_, hincoming⟩
  cases hframing : e.framing with
  | mk buffer queue =>
    rw [hframing] at hqueue hbuffer
    rw [show buffer = [] from hbuffer, show queue = [] from hqueue]

/-- A message that is returned from the queue is the first of those carried. -/
theorem carries_of_queue {e : Endpoint} {message : List Char} {queue messages : List (List Char)}
    (h : e.Carries (message :: messages)) (hqueue : e.framing.queue = message :: queue) :
    ({ e with framing := { e.framing with queue } } : Endpoint).Carries messages := by
  obtain ⟨hconnected, hwaits, hfull, todo, hmessages, hsize, hstream⟩ := h
  rw [hqueue, List.cons_append, List.cons.injEq] at hmessages
  exact ⟨hconnected, hwaits, hfull, todo, hmessages.2, hsize, hstream⟩

/-- A chunk that is read completes some of the messages, and shows no fault, since the stream is
made of written frames. -/
theorem carries_of_chunk {e : Endpoint} {messages : List (List Char)} {chunk : List Char}
    {chunks : List (List Char)} (h : e.Carries messages) (hqueue : e.framing.queue = [])
    (hincoming : e.incoming = chunk :: chunks) :
    faultOf (e.framing.buffer ++ chunk) = none ∧
      ({ e with
        framing := (e.framing.push chunk).2
        incoming := chunks } : Endpoint).Carries messages := by
  obtain ⟨hconnected, -, hfull, todo, hmessages, hsize, hstream⟩ := h
  rw [hincoming, List.flatten_cons, ← List.append_assoc] at hstream
  -- Some messages are complete by now, and `later` are those that are not.
  obtain ⟨later, rfl, hfault, hrest⟩ := read_frames hsize hstream
  refine ⟨hfault, hconnected, ?_, ?_, later, ?_, ?_, ?_⟩
  · rw [push_eq]
    exact nextFrame_unread hfault
  · exact fun c hc => hfull c (hincoming ▸ List.mem_cons_of_mem chunk hc)
  · rw [push_eq, hmessages, hqueue]
    rfl
  · exact fun m hm => hsize m (List.mem_append_right _ hm)
  · rw [push_eq]
    exact hrest

/-- A call returns the first message and leaves the others. The induction is on the chunks that the
call reads; when there are none left, the message must be in the queue. -/
theorem receive_of_carries {e : Endpoint} {message : List Char} {messages : List (List Char)}
    (h : e.Carries (message :: messages)) :
    ∃ after, e.receive = (.ok message, after) ∧ after.Carries messages ∧
      after.written = e.written := by
  induction hincoming : e.incoming generalizing e with
  | nil =>
    obtain ⟨-, hwaits, -, todo, hmessages, hsize, hstream⟩ := id h
    cases hqueue : e.framing.queue with
    | cons body queue =>
      rw [hqueue, List.cons_append, List.cons.injEq] at hmessages
      obtain ⟨rfl, -⟩ := hmessages
      exact ⟨_, receive_of_queue hqueue, carries_of_queue h hqueue, rfl⟩
    | nil =>
      -- The first message would be complete in the buffer.
      rw [hqueue, List.nil_append] at hmessages
      subst hmessages
      rw [hincoming, List.flatten_nil, List.append_nil, List.flatMap_cons] at hstream
      rw [hstream, nextFrame_frame (hsize message List.mem_cons_self)] at hwaits
      exact nomatch hwaits
  | cons chunk chunks ih =>
    cases hqueue : e.framing.queue with
    | cons body queue =>
      obtain ⟨todo, hmessages, -⟩ := h.stream
      rw [hqueue, List.cons_append, List.cons.injEq] at hmessages
      obtain ⟨rfl, -⟩ := hmessages
      exact ⟨_, receive_of_queue hqueue, carries_of_queue h hqueue, rfl⟩
    | nil =>
      obtain ⟨hfault, hcarries⟩ := carries_of_chunk h hqueue hincoming
      rw [receive_of_chunk h.connected hqueue hincoming hfault]
      exact ih hcarries rfl

/-- As many calls as there are messages return them all, and leave nothing behind. By induction on
the messages: each call returns the first one, and the endpoint then carries the others. -/
theorem receiveMany_of_carries {e : Endpoint} {messages : List (List Char)}
    (h : e.Carries messages) :
    e.receiveMany messages.length =
      (messages.map .ok, { e with framing := {}, incoming := [] }) := by
  induction messages generalizing e with
  | nil =>
    obtain ⟨hframing, hincoming⟩ := eq_of_carries_nil h
    cases e with
    | mk framing incoming written connected =>
      rw [show framing = {} from hframing, show incoming = [] from hincoming]
      rfl
  | cons message messages ih =>
    obtain ⟨after, hreceive, hcarries, hwritten⟩ := receive_of_carries h
    simp only [List.length_cons, Endpoint.receiveMany, hreceive, ih hcarries, List.map_cons,
      hwritten, hcarries.connected, h.connected]

/-- Written messages arrive in order, however their bytes are cut, and nothing is left
over. -/
theorem round_trip {messages : List (List Char)}
    (hsize : ∀ m ∈ messages, byteLength m ≤ maxSize) {portions : List (List UInt8)}
    (hbytes : portions.flatten =
      encode (({} : Endpoint).sendAll messages).written.flatten) :
    ∃ pieces, ({} : Decoder).pushAll portions = (pieces, {}) ∧
      ({ incoming := pieces.map Piece.chars } : Endpoint).receiveMany messages.length =
        (messages.map .ok, {}) := by
  have hwritten : (({} : Endpoint).sendAll messages).written.flatten = messages.flatMap frame := by
    rw [sendAll_of_connected rfl, List.nil_append, List.flatMap_def]
  rw [hwritten] at hbytes
  -- First the bytes become characters again, then the characters become messages.
  obtain ⟨pieces, hpieces, htext, hfull⟩ :=
    Decoder.pushAll_of_encode portions (d := {}) rfl hbytes
  refine ⟨pieces, hpieces, ?_⟩
  have hcarries : ({ incoming := pieces.map Piece.chars } : Endpoint).Carries messages := by
    refine ⟨rfl, rfl, ?_, messages, rfl, hsize, htext⟩
    intro chunk hchunk
    obtain ⟨piece, hpiece, rfl⟩ := List.mem_map.mp hchunk
    exact hfull piece hpiece
  exact receiveMany_of_carries hcarries

/-- Two messages, the second of them an empty line; the cuts fall in a header name, in an
empty line and inside a character. -/
theorem round_trip_of_cuts :
    ∃ pieces, ({} : Decoder).pushAll [encode "Content-Le".toList, [],
          encode "ngth: 2\r\n\r".toList, [0x0A, 0xC3],
          0xA9 :: encode "Content-Length: 4\r\n\r\n\r\n\r\n".toList] = (pieces, {}) ∧
      ({ incoming := pieces.map Piece.chars } : Endpoint).receiveMany 2 =
        ([.ok ['é'], .ok ['\r', '\n', '\r', '\n']], {}) :=
  have hsize : ∀ m ∈ [['é'], ['\r', '\n', '\r', '\n']], byteLength m ≤ maxSize := by decide
  round_trip hsize rfl

end LanguageClient.Framing
