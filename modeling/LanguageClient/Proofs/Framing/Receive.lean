import LanguageClient.Framing.Endpoint
import LanguageClient.Proofs.Framing.Frame

/-!
# `LanguageClient.Proofs.Framing.Receive`: a text that arrives in chunks

What a text holds does not depend on how it is cut: `bodies` are its messages up to
the first fault, `faultOf` is that fault and `unread` is what is left.
`read_append` and `read_append_of_fault` say how the three grow with the text, and
`push_eq` that a chunk adds to a buffer exactly what they say.

What successive calls of `Endpoint.receive` return does depend on it. A call reads
chunks only while the queue is empty, and ends with the fault of a chunk at once,
though messages of the same chunk are queued.

* `upToFault_receiveMany`: the results up to the first fault are the messages of
  the chunks before the faulty one, then the fault.
* `results_eq_script_iff`: they are all messages in front of the fault exactly if
  the faulty chunk completes none.
* `results_eq_of_flatten_iff`: they are the same for every division of a text
  exactly if no message stands in front of a fault.
-/

set_option autoImplicit false

namespace LanguageClient.Framing

open Text

/-! ### What a text holds -/

/-- The messages of a text, up to its first fault. -/
def bodies (s : List Char) : List (List Char) := (({} : Framing).push s).2.queue

/-- The first fault of a text. -/
def faultOf (s : List Char) : Option FramingError := (({} : Framing).push s).1

/-- What stands behind the messages of a text: an incomplete message, or a fault. -/
def unread (s : List Char) : List Char := (({} : Framing).push s).2.buffer

/-- Texts from their messages: a text is incomplete, or faulty, or has a message in
front of a shorter text. -/
theorem frames_induction {motive : List Char → Prop}
    (wait : ∀ s, nextFrame s = .ok none → motive s)
    (fault : ∀ s e, nextFrame s = .error e → motive s)
    (message : ∀ s body rest, nextFrame s = .ok (some (body, rest)) → motive rest → motive s)
    (s : List Char) : motive s := by
  induction hn : s.length using Nat.strongRecOn generalizing s with
  | ind n ih =>
    subst hn
    cases hnext : nextFrame s with
    | error e => exact fault s e hnext
    | ok found =>
      cases found with
      | none => exact wait s hnext
      | some pair =>
        obtain ⟨body, rest⟩ := pair
        -- The text behind a message is shorter than the text, since the header is not empty.
        have hlength := length_lt_of_nextFrame hnext
        exact message s body rest hnext (ih rest.length hlength rest rfl)

/-- A buffer whose first message is not complete is left as it is, with whatever fuel: there is
nothing to take off it yet. -/
theorem splitOff_of_wait {f : Framing} (h : nextFrame f.buffer = .ok none) (n : Nat) :
    splitOff n f = (none, f) := by
  cases n with
  | zero => rfl
  | succ n => simp only [splitOff, h]

/-- A fault in front of the buffer is found and stays there, and nothing behind it is looked at. The
bound on the fuel is there because without any the loop would not even look. -/
theorem splitOff_of_fault {f : Framing} {e : FramingError} (h : nextFrame f.buffer = .error e)
    {n : Nat} (hn : f.buffer.length ≤ n) : splitOff n f = (some e, f) := by
  cases n with
  | zero =>
    rw [List.eq_nil_of_length_eq_zero (Nat.le_zero.mp hn)] at h
    exact nomatch h
  | succ n => simp only [splitOff, h]

/-- A complete message goes from the buffer to the end of the queue, and the loop goes on with the
rest. The rest is shorter, so the fuel lasts. -/
theorem splitOff_of_message {f : Framing} {body rest : List Char}
    (h : nextFrame f.buffer = .ok (some (body, rest))) {n : Nat} (hn : f.buffer.length ≤ n + 1) :
    rest.length ≤ n ∧
      splitOff (n + 1) f = splitOff n { buffer := rest, queue := f.queue ++ [body] } := by
  have hlength := length_lt_of_nextFrame h
  exact ⟨by omega, by simp only [splitOff, h]⟩

/-- Fuel beyond the length of the buffer changes nothing, and messages join the queue at its end. So
what a text holds can be asked of an empty queue, and the fuel is not mentioned any more. -/
theorem splitOff_congr {s : List Char} (queue : List (List Char)) {n m : Nat}
    (hn : s.length ≤ n) (hm : s.length ≤ m) :
    splitOff n { buffer := s, queue } = ((splitOff m { buffer := s }).1,
      { buffer := (splitOff m { buffer := s }).2.buffer,
        queue := queue ++ (splitOff m { buffer := s }).2.queue }) := by
  induction s using frames_induction generalizing queue n m with
  | wait s h =>
    rw [splitOff_of_wait (f := ⟨s, queue⟩) h, splitOff_of_wait (f := ⟨s, []⟩) h]
    simp
  | fault s e h =>
    -- The fault is found with any fuel, before anything is queued.
    rw [splitOff_of_fault (f := ⟨s, queue⟩) h hn, splitOff_of_fault (f := ⟨s, []⟩) h hm]
    simp
  | message s body rest h ih =>
    have hlength := length_lt_of_nextFrame h
    obtain ⟨n, rfl⟩ := Nat.exists_eq_succ_of_ne_zero (show n ≠ 0 by omega)
    obtain ⟨m, rfl⟩ := Nat.exists_eq_succ_of_ne_zero (show m ≠ 0 by omega)
    obtain ⟨hn', hstep⟩ := splitOff_of_message (f := ⟨s, queue⟩) h hn
    obtain ⟨hm', hstep'⟩ := splitOff_of_message (f := ⟨s, []⟩) h hm
    -- Both sides split off the same message. The hypothesis is used twice on the rest, with the
    -- queue that was there and with none.
    rw [hstep, hstep', ih (queue ++ [body]) hn' hm', ih ([] ++ [body]) hm' hm']
    simp

/-- A chunk adds to a buffer what the whole text says. From here on a framing is its text, and
chunks are joined before anything is said about them. -/
theorem push_eq (f : Framing) (chunk : List Char) :
    f.push chunk = (faultOf (f.buffer ++ chunk),
      { buffer := unread (f.buffer ++ chunk),
        queue := f.queue ++ bodies (f.buffer ++ chunk) }) :=
  splitOff_congr f.queue (Nat.le_refl _) (Nat.le_refl _)

/-- What a text holds whose first message is not complete: no message, no fault, and all of it is
unread. With the two that follow it opens the three cases of `frames_induction`. -/
theorem read_of_wait {s : List Char} (h : nextFrame s = .ok none) :
    bodies s = [] ∧ faultOf s = none ∧ unread s = s := by
  have hpush : ({} : Framing).push s = (none, { buffer := s }) :=
    splitOff_of_wait (f := ⟨s, []⟩) h _
  simp only [bodies, faultOf, unread, hpush, and_self]

/-- What a text holds with a fault in front: no message, that fault, and all of it is unread. -/
theorem read_of_fault {s : List Char} {e : FramingError} (h : nextFrame s = .error e) :
    bodies s = [] ∧ faultOf s = some e ∧ unread s = s := by
  have hpush : ({} : Framing).push s = (some e, { buffer := s }) :=
    splitOff_of_fault (f := ⟨s, []⟩) h (Nat.le_refl _)
  simp only [bodies, faultOf, unread, hpush, and_self]

/-- What a text holds with a complete message in front: that message, and all else as in the
rest. -/
theorem read_of_message {s body rest : List Char} (h : nextFrame s = .ok (some (body, rest))) :
    bodies s = body :: bodies rest ∧ faultOf s = faultOf rest ∧ unread s = unread rest := by
  have hlength := length_lt_of_nextFrame h
  obtain ⟨n, hn⟩ := Nat.exists_eq_succ_of_ne_zero (show s.length ≠ 0 by omega)
  have hpush : ({} : Framing).push s =
      (faultOf rest, { buffer := unread rest, queue := [body] ++ bodies rest }) := by
    obtain ⟨hrest, hstep⟩ := splitOff_of_message (f := ⟨s, []⟩) h (Nat.le_of_eq hn)
    have hsplit : ({} : Framing).push s = splitOff s.length ⟨s, []⟩ := rfl
    rw [hsplit, hn, hstep]
    exact splitOff_congr [body] hrest (Nat.le_refl _)
  simp only [bodies, faultOf, unread, hpush, List.singleton_append, and_self]

/-! ### What a longer text holds -/

/-- What stands behind the messages of a text without a fault is an incomplete
message. -/
theorem nextFrame_unread {s : List Char} (h : faultOf s = none) :
    nextFrame (unread s) = .ok none := by
  induction s using frames_induction with
  | wait s hnext =>
    rw [(read_of_wait hnext).2.2]
    exact hnext
  | fault s e hnext =>
    rw [(read_of_fault hnext).2.1] at h
    exact nomatch h
  | message s body rest hnext ih =>
    obtain ⟨-, hfault, hunread⟩ := read_of_message hnext
    rw [hunread]
    exact ih (hfault ▸ h)

/-- Behind a text without a fault, reading goes on where it stopped. With this the chunks of a
stream can be read one by one or all at once. -/
theorem read_append {s : List Char} (h : faultOf s = none) (t : List Char) :
    bodies (s ++ t) = bodies s ++ bodies (unread s ++ t) ∧
      faultOf (s ++ t) = faultOf (unread s ++ t) ∧
      unread (s ++ t) = unread (unread s ++ t) := by
  induction s using frames_induction with
  | wait s hnext =>
    obtain ⟨hbodies, -, hunread⟩ := read_of_wait hnext
    rw [hbodies, hunread]
    exact ⟨rfl, rfl, rfl⟩
  | fault s e hnext =>
    -- A faulty text is excluded by `h`.
    rw [(read_of_fault hnext).2.1] at h
    exact nomatch h
  | message s body rest hnext ih =>
    obtain ⟨hbodies, hfault, hunread⟩ := read_of_message hnext
    -- The first message stays the first one with more text behind it.
    obtain ⟨hbodies', hfault', hunread'⟩ := read_of_message (nextFrame_append_message hnext t)
    obtain ⟨ih₁, ih₂, ih₃⟩ := ih (hfault ▸ h)
    rw [hbodies', hfault', hunread', hbodies, hunread, ih₁, ih₂, ih₃]
    exact ⟨rfl, rfl, rfl⟩

/-- Behind a fault nothing is read, however much comes. The text that is added stays in the
buffer. -/
theorem read_append_of_fault {s : List Char} {e : FramingError} (h : faultOf s = some e)
    (t : List Char) :
    bodies (s ++ t) = bodies s ∧ faultOf (s ++ t) = some e ∧ unread (s ++ t) = unread s ++ t := by
  induction s using frames_induction with
  | wait s hnext =>
    -- A text that waits has no fault, against `h`.
    rw [(read_of_wait hnext).2.1] at h
    exact nomatch h
  | fault s e' hnext =>
    obtain ⟨hbodies, hfault, hunread⟩ := read_of_fault hnext
    -- The fault stays in front, whatever is added.
    obtain ⟨hbodies', hfault', hunread'⟩ := read_of_fault (nextFrame_append_error hnext t)
    rw [hbodies', hfault', hunread', hbodies, hunread, ← hfault, h]
    exact ⟨rfl, rfl, rfl⟩
  | message s body rest hnext ih =>
    obtain ⟨hbodies, hfault, hunread⟩ := read_of_message hnext
    obtain ⟨hbodies', hfault', hunread'⟩ := read_of_message (nextFrame_append_message hnext t)
    obtain ⟨ih₁, ih₂, ih₃⟩ := ih (hfault ▸ h)
    rw [hbodies', hfault', hunread', hbodies, hunread, ih₁, ih₂, ih₃]
    exact ⟨rfl, rfl, rfl⟩

/-! ### Successive calls -/

/-- Results of calls that receive. -/
abbrev Results : Type := List (Except EndpointError (List Char))

/-- The results of a number of successive calls. -/
def Endpoint.receiveMany : Nat → Endpoint → Results × Endpoint
  | 0, e => ([], e)
  | n + 1, e =>
    let (result, e) := e.receive
    let (results, e) := receiveMany n e
    (result :: results, e)

/-- The results up to the first fault of the framing, and that fault. -/
def upToFault : Results → Results
  | .error (.framing fault) :: _ => [.error (.framing fault)]
  | result :: results => result :: upToFault results
  | [] => []

/-- What a number of calls return that are given some messages and then a fault; where
there is no fault, there are no more chunks. -/
def script : List (List Char) → Option FramingError → Nat → Results
  | _, _, 0 => []
  | body :: messages, fault, n + 1 => .ok body :: script messages fault n
  | [], some fault, _ + 1 => [.error (.framing fault)]
  | [], none, n + 1 => .error .exhausted :: script [] none n

/-- The messages of the chunks in front of the one that shows a fault, behind a text
that waits already. -/
def ahead (waiting : List Char) : List (List Char) → List (List Char)
  | [] => []
  | chunk :: chunks =>
    if faultOf (waiting ++ chunk) = none then
      bodies (waiting ++ chunk) ++ ahead (unread (waiting ++ chunk)) chunks
    else []

/-- A call with a message in the queue returns it and reads nothing, whether or not the source is
there. -/
theorem receive_of_queue {e : Endpoint} {body : List Char} {queue : List (List Char)}
    (h : e.framing.queue = body :: queue) :
    e.receive = (.ok body, { e with framing := { e.framing with queue } }) := by
  obtain ⟨⟨buffer, _⟩, incoming, written, connected⟩ := e
  subst h
  cases connected with
  | false => rfl
  | true =>
    cases incoming with
    | nil => rfl
    | cons chunk chunks => rfl

/-- A call with an empty queue and no chunk to read finds the source exhausted, and nothing
changes. -/
theorem receive_of_nil {e : Endpoint} (hconnected : e.connected = true)
    (hqueue : e.framing.queue = []) (hincoming : e.incoming = []) :
    e.receive = (.error .exhausted, e) := by
  obtain ⟨⟨buffer, _⟩, _, written, _⟩ := e
  subst hconnected hqueue hincoming
  rfl

/-- A call with an empty queue returns the fault that the next chunk shows. The messages of that
chunk are in the queue by then, and are returned by later calls only: this is how a fault overtakes
them. -/
theorem receive_of_fault {e : Endpoint} {chunk : List Char} {chunks : List (List Char)}
    {fault : FramingError} (hconnected : e.connected = true) (hqueue : e.framing.queue = [])
    (hincoming : e.incoming = chunk :: chunks)
    (hfault : faultOf (e.framing.buffer ++ chunk) = some fault) :
    e.receive = (.error (.framing fault),
      { e with
        framing := (e.framing.push chunk).2
        incoming := chunks }) := by
  obtain ⟨⟨buffer, _⟩, _, written, _⟩ := e
  subst hconnected hqueue hincoming
  have hpush := push_eq ⟨buffer, []⟩ chunk
  simp only [hfault] at hpush
  simp only [Endpoint.receive, Framing.receive, hpush, if_true]

/-- A chunk without a fault is read and the call goes on. It returns what a call would return that
comes after the chunk, so that an induction on the chunks follows one call. -/
theorem receive_of_chunk {e : Endpoint} {chunk : List Char} {chunks : List (List Char)}
    (hconnected : e.connected = true) (hqueue : e.framing.queue = [])
    (hincoming : e.incoming = chunk :: chunks)
    (hfault : faultOf (e.framing.buffer ++ chunk) = none) :
    e.receive = ({ e with
      framing := (e.framing.push chunk).2
      incoming := chunks } : Endpoint).receive := by
  obtain ⟨⟨buffer, _⟩, _, written, _⟩ := e
  subst hconnected hqueue hincoming
  have hpush := push_eq ⟨buffer, []⟩ chunk
  simp only [hfault] at hpush
  simp only [Endpoint.receive, Framing.receive, hpush, if_true]

/-- The results up to the first fault: what is queued, the messages of the chunks in
front of the faulty one, then the fault. The induction is on the calls, and inside a
call on the chunks it reads; between two chunks what waits is an incomplete message. -/
theorem upToFault_receiveMany (n : Nat) (e : Endpoint) (hconnected : e.connected = true)
    (hwait : nextFrame e.framing.buffer = .ok none) :
    upToFault (e.receiveMany n).1 =
      script (e.framing.queue ++ ahead e.framing.buffer e.incoming)
        (faultOf (e.framing.buffer ++ e.incoming.flatten)) n := by
  induction n generalizing e with
  | zero => rfl
  | succ n ih =>
    -- A call that finds a message in the queue reads no chunk.
    have queued : ∀ (e : Endpoint) (body : List Char) (queue : List (List Char)),
        e.connected = true → nextFrame e.framing.buffer = .ok none →
        e.framing.queue = body :: queue →
        upToFault (e.receiveMany (n + 1)).1 =
          script (e.framing.queue ++ ahead e.framing.buffer e.incoming)
            (faultOf (e.framing.buffer ++ e.incoming.flatten)) (n + 1) := by
      intro e body queue hconnected hwait hqueue
      have hrest := ih { e with framing := { e.framing with queue } } hconnected hwait
      simp only [Endpoint.receiveMany, receive_of_queue hqueue, upToFault]
      rw [hqueue, List.cons_append, script, ← hrest]
    induction hincoming : e.incoming generalizing e with
    | nil =>
      -- Nothing is left to read. What waits is incomplete, so without a queue the end is found.
      cases hqueue : e.framing.queue with
      | cons body queue =>
        rw [← hqueue, ← hincoming]
        exact queued e body queue hconnected hwait hqueue
      | nil =>
        have hrest := ih e hconnected hwait
        have hnone := (read_of_wait hwait).2.1
        simp only [Endpoint.receiveMany, receive_of_nil hconnected hqueue hincoming, upToFault,
          hrest, hincoming, hqueue, ahead, List.flatten_nil, List.append_nil, hnone, script]
    | cons chunk chunks ihchunks =>
      cases hqueue : e.framing.queue with
      | cons body queue =>
        rw [← hqueue, ← hincoming]
        exact queued e body queue hconnected hwait hqueue
      | nil =>
        rw [List.flatten_cons, ← List.append_assoc]
        cases hfault : faultOf (e.framing.buffer ++ chunk) with
        | some fault =>
          -- The fault ends the call; what this chunk has queued is not asked for any more.
          obtain ⟨-, hwhole, -⟩ := read_append_of_fault hfault chunks.flatten
          simp only [Endpoint.receiveMany,
            receive_of_fault hconnected hqueue hincoming hfault, upToFault, ahead, hfault,
            reduceCtorEq, if_false, List.append_nil, hwhole, script]
        | none =>
          -- The chunk is sound, so the call goes on with the next one, and what was complete is
          -- queued.
          obtain ⟨-, hwhole, -⟩ := read_append hfault chunks.flatten
          have hpush := push_eq e.framing chunk
          have hrest := ihchunks
            { e with framing := (e.framing.push chunk).2, incoming := chunks } hconnected
            (by rw [hpush]; exact nextFrame_unread hfault) rfl
          simp only [Endpoint.receiveMany, receive_of_chunk hconnected hqueue hincoming hfault,
            hwhole, ahead, hfault, if_true, List.nil_append]
          simp only [Endpoint.receiveMany, hpush, hqueue, List.nil_append] at hrest
          simp only [hpush, hqueue, List.nil_append]
          exact hrest

/-! ### Divisions of a text -/

/-- The results of calls at a fresh endpoint, up to the first fault. -/
def results (n : Nat) (chunks : List (List Char)) : Results :=
  upToFault (({ incoming := chunks } : Endpoint).receiveMany n).1

/-- The chunk that shows the first fault completes a message too. -/
def Overtakes (chunks : List (List Char)) : Prop :=
  ∃ before chunk after, chunks = before ++ chunk :: after ∧
    faultOf before.flatten = none ∧ faultOf (before.flatten ++ chunk) ≠ none ∧
    bodies (before.flatten ++ chunk) ≠ bodies before.flatten

/-- The results of calls are told by two things, the messages ahead of the fault and the fault. So
two divisions of a text have the same results if these two are the same. -/
theorem results_eq_script (n : Nat) (chunks : List (List Char)) :
    results n chunks = script (ahead [] chunks) (faultOf chunks.flatten) n :=
  upToFault_receiveMany n { incoming := chunks } rfl rfl

/-- Different messages, and different faults, show in the results, if enough calls are made. So the
results of calls determine the messages that were ahead. -/
theorem script_injective {a b : List (List Char)} {fault fault' : Option FramingError}
    (h : ∀ n, script a fault n = script b fault' n) : a = b ∧ fault = fault' := by
  -- The first result is a message on one side only.
  have hne : ∀ (fault fault' : Option FramingError) (body : List Char)
      (messages : List (List Char)), script [] fault 1 ≠ script (body :: messages) fault' 1 := by
    intro fault fault' body messages hone
    cases fault with
    | none => simp [script] at hone
    | some fault => simp [script] at hone
  induction a generalizing b with
  | nil =>
    cases b with
    | nil =>
      -- With no message left the first result tells the fault.
      have hone := h 1
      refine ⟨rfl, ?_⟩
      cases fault with
      | none =>
        cases fault' with
        | none => rfl
        | some fault' => simp [script] at hone
      | some fault =>
        cases fault' with
        | none => simp [script] at hone
        | some fault' =>
          simp only [script, List.cons.injEq, Except.error.injEq, EndpointError.framing.injEq,
            and_true] at hone
          rw [hone]
    | cons body messages => exact absurd (h 1) (hne fault fault' body messages)
  | cons x a ih =>
    cases b with
    | nil => exact absurd (h 1).symm (hne fault' fault x a)
    | cons y b =>
      have hhead : x = y := by
        have hone := h 1
        simp only [script, List.cons.injEq, Except.ok.injEq] at hone
        exact hone.1
      obtain ⟨htail, hfault⟩ := ih fun n => by
        have hsucc := h (n + 1)
        simp only [script, List.cons.injEq] at hsucc
        exact hsucc.2
      exact ⟨by rw [hhead, htail], hfault⟩

/-- The chunks of a text without a fault are read to the end. What is ahead of a fault then begins
with all the messages of these chunks. -/
theorem ahead_append {waiting : List Char} (before after : List (List Char))
    (hwait : nextFrame waiting = .ok none) (h : faultOf (waiting ++ before.flatten) = none) :
    ahead waiting (before ++ after) = bodies (waiting ++ before.flatten) ++
      ahead (unread (waiting ++ before.flatten)) after := by
  induction before generalizing waiting with
  | nil =>
    obtain ⟨hbodies, -, hunread⟩ := read_of_wait hwait
    simp only [List.flatten_nil, List.append_nil, hbodies, hunread, List.nil_append]
  | cons chunk before ih =>
    rw [List.flatten_cons, ← List.append_assoc] at h ⊢
    -- A fault in the first chunk would be one of all chunks, since no more text mends it.
    have hchunk : faultOf (waiting ++ chunk) = none := by
      cases hfault : faultOf (waiting ++ chunk) with
      | none => rfl
      | some fault =>
        rw [(read_append_of_fault hfault before.flatten).2.1] at h
        exact nomatch h
    obtain ⟨hbodies, hfault, hunread⟩ := read_append hchunk before.flatten
    rw [List.cons_append, ahead, if_pos hchunk,
      ih (nextFrame_unread hchunk) (hfault ▸ h), hbodies, hunread, List.append_assoc]

/-- The messages in front of the chunk that shows the first fault. What is in that chunk is lost
with the fault, even if messages are in it, because the call that takes it fails. -/
theorem ahead_of_fault {before after : List (List Char)} {chunk : List Char}
    (hbefore : faultOf before.flatten = none) (hchunk : faultOf (before.flatten ++ chunk) ≠ none) :
    ahead [] (before ++ chunk :: after) = bodies before.flatten := by
  have hfault : faultOf (unread before.flatten ++ chunk) ≠ none := by
    rw [← (read_append hbefore chunk).2.1]
    exact hchunk
  have hstart : nextFrame [] = .ok none := rfl
  have happend := ahead_append before (chunk :: after) hstart hbefore
  rw [List.nil_append] at happend
  rw [happend, ahead, if_neg hfault, List.append_nil]

/-- All messages, where there is no fault. -/
theorem ahead_of_sound {chunks : List (List Char)} (h : faultOf chunks.flatten = none) :
    ahead [] chunks = bodies chunks.flatten := by
  have hstart : nextFrame [] = .ok none := rfl
  have happend := ahead_append chunks [] hstart h
  rw [List.append_nil, ahead, List.append_nil, List.nil_append] at happend
  exact happend

/-- In a faulty text one chunk shows the fault first, and it is the one at which a call fails. The
chunks before it have no fault together, and with it they have one. -/
theorem exists_faulty {chunks : List (List Char)} (h : faultOf chunks.flatten ≠ none) :
    ∃ before chunk after, chunks = before ++ chunk :: after ∧
      faultOf before.flatten = none ∧ faultOf (before.flatten ++ chunk) ≠ none := by
  -- From the end: the last chunk is the one, unless the text in front of it is faulty.
  induction hreverse : chunks.reverse generalizing chunks with
  | nil =>
    rw [List.reverse_eq_nil_iff.mp hreverse] at h
    exact absurd rfl h
  | cons chunk front ih =>
    obtain rfl : chunks = front.reverse ++ [chunk] := by
      rw [← List.reverse_cons, ← hreverse, List.reverse_reverse]
    rw [List.flatten_append, List.flatten_singleton] at h
    by_cases hfront : faultOf front.reverse.flatten = none
    · exact ⟨front.reverse, chunk, [], rfl, hfront, h⟩
    · obtain ⟨before, first, after, hfirst, hbefore, hfault⟩ :=
        ih hfront front.reverse_reverse
      refine ⟨before, first, after ++ [chunk], ?_, hbefore, hfault⟩
      rw [hfirst, List.append_assoc, List.cons_append]

/-- The messages of a text up to the chunk that shows the first fault. -/
theorem bodies_of_fault {before after : List (List Char)} {chunk : List Char}
    (hchunk : faultOf (before.flatten ++ chunk) ≠ none) :
    bodies (before ++ chunk :: after).flatten = bodies (before.flatten ++ chunk) := by
  obtain ⟨fault, hfault⟩ := Option.ne_none_iff_exists'.mp hchunk
  rw [List.flatten_append, List.flatten_cons, ← List.append_assoc]
  exact (read_append_of_fault hfault after.flatten).1

/-- All messages in front of the fault are ahead of it exactly if the chunk that shows the fault
completes none. Of the other chunks in front all messages are ahead in any case. -/
theorem ahead_eq_bodies_iff (chunks : List (List Char)) :
    ahead [] chunks = bodies chunks.flatten ↔ ¬ Overtakes chunks := by
  constructor
  · rintro heq ⟨before, chunk, after, rfl, hbefore, hchunk, hne⟩
    rw [ahead_of_fault hbefore hchunk, bodies_of_fault hchunk] at heq
    exact hne heq.symm
  · intro hnot
    by_cases hsound : faultOf chunks.flatten = none
    · exact ahead_of_sound hsound
    · obtain ⟨before, chunk, after, rfl, hbefore, hchunk⟩ := exists_faulty hsound
      -- Only the messages that this chunk completes make a difference.
      rw [ahead_of_fault hbefore hchunk, bodies_of_fault hchunk]
      refine Decidable.byContradiction fun hne => hnot ?_
      exact ⟨before, chunk, after, rfl, hbefore, hchunk, fun heq => hne heq.symm⟩

/-- All messages in front of the first fault are received exactly if the chunk that
shows the fault completes none of them. -/
theorem results_eq_script_iff (chunks : List (List Char)) :
    (∀ n, results n chunks = script (bodies chunks.flatten) (faultOf chunks.flatten) n) ↔
      ¬ Overtakes chunks := by
  rw [← ahead_eq_bodies_iff]
  constructor
  · intro h
    -- Scripts tell their messages apart, so equal results mean that nothing was overtaken.
    have hscript : ∀ n, script (ahead [] chunks) (faultOf chunks.flatten) n =
        script (bodies chunks.flatten) (faultOf chunks.flatten) n := by
      intro n
      rw [← results_eq_script, h n]
    exact (script_injective hscript).1
  · intro h n
    rw [results_eq_script, h]

/-- Without a message in front of the fault there is none for the fault to overtake. -/
theorem ahead_eq_nil {chunks : List (List Char)} (hfault : faultOf chunks.flatten ≠ none)
    (h : bodies chunks.flatten = []) : ahead [] chunks = [] := by
  obtain ⟨before, chunk, after, rfl, hbefore, hchunk⟩ := exists_faulty hfault
  rw [bodies_of_fault hchunk, (read_append hbefore chunk).1] at h
  rw [ahead_of_fault hbefore hchunk]
  exact (List.append_eq_nil_iff.mp h).1

/-- A faulty text with a message can be cut behind the first message: then that message is received,
and in one chunk it is not. So such a text always has two divisions that differ. -/
theorem exists_division {text : List Char} (hfault : faultOf text ≠ none)
    (h : bodies text ≠ []) :
    ∃ a b, a.flatten = text ∧ b.flatten = text ∧ ahead [] a = [] ∧ ahead [] b ≠ [] := by
  cases hnext : nextFrame text with
  | error e => exact absurd (read_of_fault hnext).1 h
  | ok found =>
    cases found with
    | none => exact absurd (read_of_wait hnext).1 h
    | some pair =>
      obtain ⟨body, rest⟩ := pair
      obtain ⟨front, rfl, hfront⟩ := exists_nextFrame_of_message hnext
      obtain ⟨hbodies, hsound, -⟩ := read_of_message hfront
      have hnone : faultOf front = none := hsound
      -- In one chunk the fault comes first, in two the message does.
      refine ⟨[front ++ rest], [front, rest], by simp, by simp, ?_, ?_⟩
      · rw [ahead, List.nil_append, if_neg hfault]
      · rw [ahead, List.nil_append, hnone, if_pos rfl, hbodies]
        exact List.cons_ne_nil _ _

/-- The results are the same for every division of a text exactly if the text has no fault or no
message in front of it. Divisions of other texts are told apart by `exists_division`. -/
theorem results_eq_of_flatten_iff (text : List Char) :
    (∀ a b, a.flatten = text → b.flatten = text → ∀ n, results n a = results n b) ↔
      faultOf text = none ∨ bodies text = [] := by
  constructor
  · intro h
    by_cases hfault : faultOf text = none
    · exact .inl hfault
    · refine .inr (Decidable.byContradiction fun hbodies => ?_)
      obtain ⟨a, b, ha, hb, hnil, hne⟩ := exists_division hfault hbodies
      have hscript : ∀ n, script (ahead [] b) (faultOf text) n =
          script (ahead [] a) (faultOf text) n := by
        intro n
        have hab := h b a hb ha n
        rw [results_eq_script, results_eq_script, ha, hb] at hab
        exact hab
      exact hne (by rw [(script_injective hscript).1, hnil])
  · rintro h a b rfl hb n
    rw [results_eq_script, results_eq_script, hb]
    by_cases hfault : faultOf a.flatten = none
    · -- Without a fault all messages are received in both.
      rw [ahead_of_sound hfault, ahead_of_sound (hb ▸ hfault), hb]
    · -- Without a message in front of it the fault comes first in both.
      have hbodies : bodies a.flatten = [] := h.resolve_left hfault
      rw [ahead_eq_nil hfault hbodies, ahead_eq_nil (hb ▸ hfault) (hb ▸ hbodies)]

/-- Results keep the order of the text exactly if no chunk completes a message and shows
the first fault as well; so the division of a text does not matter exactly if the text
has no fault, or no message in front of it. -/
theorem chunking_independence (chunks : List (List Char)) (text : List Char) :
    ((∀ n, results n chunks = script (bodies chunks.flatten) (faultOf chunks.flatten) n) ↔
        ¬ Overtakes chunks) ∧
      ((∀ a b, a.flatten = text → b.flatten = text → ∀ n, results n a = results n b) ↔
        faultOf text = none ∨ bodies text = []) :=
  ⟨results_eq_script_iff chunks, results_eq_of_flatten_iff text⟩

/-- A message and a bad length in one chunk: the fault comes first. In two chunks it is
the message. -/
theorem fault_overtakes_message :
    results 2 ["Content-Length: 2\r\n\r\n\x7b\x7dContent-Length: x\r\n\r\n".toList] =
        [.error (.framing (.invalidLength "x"))] ∧
      results 2 ["Content-Length: 2\r\n\r\n\x7b\x7d".toList,
          "Content-Length: x\r\n\r\n".toList] =
        [.ok "\x7b\x7d".toList, .error (.framing (.invalidLength "x"))] :=
  ⟨rfl, rfl⟩

end LanguageClient.Framing
