import LanguageClient.Proofs.Rpc.Pending

/-!
# `LanguageClient.Proofs.Rpc.Course`: how the dispatcher goes on and how it ends

The dispatcher moves messages from the queue to the stream and hands on what arrives, until
one event ends it. It does not begin again.

* `accepts`, `taken`: the messages that an event puts into the queue, and the payloads that
  it takes off the stream.
* `Course`: what a step does to the dispatcher, the queue and the outgoing half of the
  stream. `course_step` is the one place that looks at every event, and the cases of
  `Course` are equations, so what is to be known of a step can be read off them.
* `Orderly`: as long as the dispatcher runs the stream is open, and afterwards the queue is
  empty. So only a failed write makes a stream refuse a message (`Orderly.takes`).
* `failed_run`, `ended_run`: a failed writer stays failed, an ended dispatcher stays ended.
-/

set_option autoImplicit false

namespace LanguageClient

/-! ### The stream -/

namespace Stream

/-- Two streams that differ at most in what there is to read. -/
structure Alike (s s' : Stream) : Prop where
  connected : s'.connected = s.connected
  isOpen : s'.isOpen = s.isOpen
  writer : s'.writer = s.writer
  outgoing : s'.outgoing = s.outgoing
  written : s'.written = s.written

/-- Nothing waits for a writer that has failed or finished, and it finishes only a stream
that has been closed. -/
structure Tidy (s : Stream) : Prop where
  failed : s.writer = .failed → s.outgoing = []
  finished : s.writer = .finished → s.outgoing = [] ∧ s.isOpen = false

/-- Whether the stream takes another text. -/
def takes (s : Stream) : Bool := s.connected && s.writer == .running

variable {s s' : Stream}

/-- A stream is like itself. -/
theorem Alike.refl (s : Stream) : s.Alike s := ⟨rfl, rfl, rfl, rfl, rfl⟩

/-- Streams that are alike carry the same texts. -/
theorem Alike.carried {texts : List (List Char)} (h : s.Alike s') (hc : s.Carried texts) :
    s'.Carried texts :=
  hc.congr h.written h.outgoing h.writer

/-- Of streams that are alike, one is tidy if the other is. Only what goes out is asked for. -/
theorem Alike.tidy (h : s.Alike s') (ht : s.Tidy) : s'.Tidy := by
  refine ⟨fun hfailed => ?_, fun hfinished => ?_⟩
  · rw [h.outgoing]
    exact ht.failed (h.writer ▸ hfailed)
  · rw [h.outgoing, h.isOpen]
    exact ht.finished (h.writer ▸ hfinished)

/-- More texts may be put behind those that wait, as long as the writer runs. Only then are the
texts that wait all that has not been written. -/
theorem Carried.extend {texts : List (List Char)} (h : s.Carried texts)
    (hwriter : s.writer = .running) (more : List (List Char)) :
    ({ s with outgoing := s.outgoing ++ more } : Stream).Carried (texts ++ more) := by
  have hwrites : s.writer ≠ .failed := fun hfailed => nomatch hwriter.symm.trans hfailed
  have hwhole : s.written ++ (s.outgoing ++ more) = texts ++ more := by
    rw [← List.append_assoc, h.whole hwrites]
  exact ⟨⟨[], by rw [List.append_nil, hwhole]⟩, fun _ => hwhole⟩

/-- While the writer runs there is nothing to tidy up. -/
theorem tidy_of_running (h : s.writer = .running) : s.Tidy := by
  refine ⟨fun hfailed => ?_, fun hfinished => ?_⟩
  · exact nomatch h.symm.trans hfailed
  · exact nomatch h.symm.trans hfinished

/-- A stream that takes a text has a writer that runs. -/
theorem writer_of_takes (h : s.takes = true) : s.writer = .running :=
  eq_of_beq (Bool.and_eq_true_iff.mp h).2

/-- What comes in changes only what there is to read. -/
theorem alike_deliver (s : Stream) (portion : List UInt8) : s.Alike (s.deliver portion).1 := by
  unfold deliver
  split
  · exact ⟨rfl, rfl, rfl, rfl, rfl⟩
  · exact .refl s

/-- The end of what comes in changes only what there is to read. -/
theorem alike_finish (s : Stream) : s.Alike s.finish.1 := by
  unfold finish
  split
  · exact ⟨rfl, rfl, rfl, rfl, rfl⟩
  · exact .refl s

/-- A break of what comes in changes only what there is to read. -/
theorem alike_breakOff (s : Stream) (cause : String) : s.Alike (s.breakOff cause).1 := by
  unfold breakOff
  split
  · exact ⟨rfl, rfl, rfl, rfl, rfl⟩
  · exact .refl s

/-- A stream that takes texts puts the next one behind the others. -/
theorem send_of_takes (h : s.takes = true) (text : List Char) :
    s.send text = .ok { s with outgoing := s.outgoing ++ [text] } := by
  obtain ⟨hconnected, hwriter⟩ := Bool.and_eq_true_iff.mp h
  rw [send, if_neg (not_not.mpr hconnected), if_neg (not_not.mpr (eq_of_beq hwriter))]

/-- Only a stream that takes texts accepts one. So `takes` decides how a send goes. -/
theorem takes_of_send {text : List Char} (h : s.send text = .ok s') : s.takes = true := by
  unfold send at h
  split at h
  · exact nomatch h
  · rename_i hconnected
    split at h
    · exact nomatch h
    · rename_i hwriter
      exact Bool.and_eq_true_iff.mpr ⟨not_not.mp hconnected, beq_iff_eq.mpr (not_not.mp hwriter)⟩

/-- The writer changes neither half of what the owner may do. -/
theorem write_owner (s : Stream) (refusal : Option String) :
    (s.write refusal).1.connected = s.connected ∧ (s.write refusal).1.isOpen = s.isOpen := by
  unfold write
  split
  · split <;> exact ⟨rfl, rfl⟩
  · dsimp only
    split <;> exact ⟨rfl, rfl⟩
  · exact ⟨rfl, rfl⟩

/-- A writer that fails throws away what waits, and it finishes only when nothing waits and the
stream is closed. -/
theorem tidy_write (h : s.Tidy) (refusal : Option String) : (s.write refusal).1.Tidy := by
  unfold write
  split
  · rename_i text rest hwriter houtgoing
    split
    · exact ⟨fun _ => rfl, nofun⟩
    · exact tidy_of_running hwriter
  · rename_i hwriter houtgoing
    dsimp only
    split
    · exact h
    · rename_i hclosed
      exact ⟨fun _ => houtgoing, fun _ => ⟨houtgoing, Bool.eq_false_iff.mpr hclosed⟩⟩
  · exact h

/-- A writer that has failed does nothing more. -/
theorem failed_write (h : s.writer = .failed) (refusal : Option String) :
    (s.write refusal).1 = s := by
  simp only [write, h]

/-- The end of a stream is seen, or something else is. Only the end changes whether the stream
counts as connected. -/
theorem take_cases (s : Stream) :
    (∃ connected, s.take = (.ended, { s with connected })) ∨
      ∃ what incoming, what ≠ .ended ∧ s.take = (what, { s with incoming }) := by
  unfold take
  split
  · exact .inl ⟨s.connected, rfl⟩
  · split
    · exact .inr ⟨.chunk _, _, nofun, rfl⟩
    · split
      · exact .inr ⟨.waiting, s.incoming, nofun, rfl⟩
      · exact .inl ⟨false, rfl⟩

/-- Closing a stream leaves it tidy. -/
theorem tidy_close (h : s.Tidy) : s.close.Tidy :=
  ⟨h.failed, fun hfinished => ⟨(h.finished hfinished).1, rfl⟩⟩

end Stream

namespace Rpc

variable {η : Type}

open Client

/-- A stream that takes texts takes all that is flushed to it. It cannot stop in the middle, since
nothing is written meanwhile. -/
theorem flush_of_takes {s : Stream} (h : s.takes = true) (messages : List Message) :
    flush s messages = { s with outgoing := s.outgoing ++ messages.map Message.frame } := by
  induction messages generalizing s with
  | nil => rw [List.map_nil, List.append_nil, flush]
  | cons m rest ih =>
    have hrest := ih (s := { s with outgoing := s.outgoing ++ [m.frame] }) h
    rw [List.append_assoc, List.singleton_append] at hrest
    rw [flush, Stream.send_of_takes h, List.map_cons]
    exact hrest

/-- A stream that takes nothing refuses the first message, and flushing ends with it. -/
theorem flush_of_not_takes {s : Stream} (h : s.takes = false) (messages : List Message) :
    flush s messages = s := by
  cases messages with
  | nil => rfl
  | cons m rest =>
    rw [flush]
    cases hsend : s.send (Framing.frame m.payload) with
    | error e => rfl
    | ok s' => exact absurd (h.symm.trans (Stream.takes_of_send hsend)) Bool.noConfusion

/-! ### Steps -/

namespace Client

/-- The payload that the dispatcher takes next, if there is one. -/
def arriving? (c : Client η) : Option (List Char) :=
  match c.dispatcher,
    (c.framing.receive (if c.stream.connected then c.stream.incoming else [])).1 with
  | .running, .message payload => some payload
  | _, _ => none

/-- The payloads that an event takes off the stream: one, if one arrives. -/
def taken (c : Client η) : Event η → List (List Char)
  | .receiveNext => c.arriving?.toList
  | _ => []

/-- The answer to a request of the other end. -/
def answerTo (c : Client η) (r : Request) : Response :=
  match c.replier with
  | some reply => reply r
  | none => .unknownMethod r.id r.method

/-- The answer to a payload, if it is a request. -/
def reply? (c : Client η) (payload : List Char) : Option Response :=
  match Message.parse payload with
  | .ok (.request r) => some (c.answerTo r)
  | _ => none

/-- The messages that an event puts into the queue: a request that can be sent, a
notification that is not refused, or the answer to a request that arrives. -/
def accepts (c : Client η) : Event η → List Message
  | .request method params _ =>
    if c.dispatcher = .running then
      [.request { id := .nat (wireId (c.calls.length + 1)), method, params }]
    else []
  | .notify method params =>
    match c.notify method params with
    | .ok _ => [.notification { method, params }]
    | .error _ => []
  | .receiveNext => ((c.arriving?.bind c.reply?).map .response).toList
  | _ => []

/-- What arrives is the payload that the dispatcher takes next. `arriving?` computes it and
`Arrives` states it; the lemmas about runs compute, and those about handlers state. -/
theorem arriving?_eq_some {c : Client η} {payload : List Char} :
    c.arriving? = some payload ↔ c.Arrives payload := by
  unfold arriving? Arrives
  cases c.dispatcher with
  | ended => exact ⟨nofun, fun h => nomatch h.1⟩
  | running =>
    cases (c.framing.receive (if c.stream.connected then c.stream.incoming else [])).1 with
    | message received =>
      exact ⟨fun h => ⟨rfl, congrArg _ (Option.some.inj h)⟩, fun h => congrArg _ (by injection h.2)⟩
    | failed e => exact ⟨nofun, fun h => nomatch h.2⟩
    | exhausted => exact ⟨nofun, fun h => nomatch h.2⟩

/-- Nothing arrives at a dispatcher that has ended. -/
theorem arriving?_of_ended {c : Client η} (h : c.dispatcher = .ended) : c.arriving? = none := by
  rw [Option.eq_none_iff_forall_ne_some]
  intro payload hsome
  exact nomatch h.symm.trans (arriving?_eq_some.mp hsome).1

/-- Nothing is queued by a client whose dispatcher has ended. A request fails at once and a
notification is refused, and nothing arrives that could be answered. -/
theorem accepts_of_ended {c : Client η} (h : c.dispatcher = .ended) (e : Event η) :
    c.accepts e = [] := by
  have hnot : ¬ c.dispatcher = .running := fun hrunning => nomatch h.symm.trans hrunning
  cases e with
  | request => exact if_neg hnot
  | notify method params => rw [accepts, notify, if_pos h]
  | receiveNext =>
    rw [accepts, arriving?_of_ended h]
    rfl
  | _ => rfl

/-- Nothing is taken by a client whose dispatcher has ended, even if there is something to take. -/
theorem taken_of_ended {c : Client η} (h : c.dispatcher = .ended) (e : Event η) :
    c.taken e = [] := by
  cases e with
  | receiveNext =>
    rw [taken, arriving?_of_ended h]
    rfl
  | _ => rfl

end Client

/-- What one step does to the dispatcher, to the queue and to what is to be written. -/
inductive Course (c : Client η) (e : Event η) (after : Client η) : Prop where
  /-- The dispatcher runs on, or has ended before. -/
  | goesOn (dispatcher : after.dispatcher = c.dispatcher)
      (accepted : after.accepted = c.accepted ++ c.accepts e)
      (outbound : after.outbound = c.outbound ++ c.accepts e)
      (received : after.received = c.received ++ c.taken e)
      (stream : c.stream.Alike after.stream)
      (pending : e.isRequest = false → after.pending ⊆ c.pending)
  | writes (refusal : Option String) (event : e = .write refusal)
      (state : after = c.withStream (c.stream.write refusal))
  /-- A message is moved to the stream. -/
  | moves (m : Message) (rest : List Message) (event : e = .sendNext)
      (running : c.dispatcher = .running) (outbound : c.outbound = m :: rest)
      (takes : c.stream.takes = true)
      (state : after =
        { c with
          stream := { c.stream with outgoing := c.stream.outgoing ++ [m.frame] }
          outbound := rest })
  /-- The stream takes nothing. -/
  | fails (notices : List Notice) (event : e = .sendNext) (running : c.dispatcher = .running)
      (refuses : c.stream.takes = false) (state : after = (c.say notices).endDispatch)
  /-- The other end has gone, or what comes from it cannot be read. -/
  | loses (framing : Framing) (incoming : List (List Char)) (connected : Bool)
      (notices : List Notice) (event : e = .receiveNext) (running : c.dispatcher = .running)
      (nothing : c.arriving? = none) (state : after =
        ({ c with framing, notices, stream := { c.stream with incoming, connected } } :
          Client η).endDispatch)
  /-- The dispatcher has been asked to stop. -/
  | stops (event : e = .stop) (running : c.dispatcher = .running) (stopping : c.stopping = true)
      (state : after = { c with stream := flush c.stream c.outbound }.endDispatch)
  /-- The dispatcher takes too long to stop, or its client is dropped. -/
  | cuts (notices : List Notice) (event : e = .forceClose ∧ c.stopping = true ∨ e = .drop)
      (state : after = (c.say notices).drop)
  /-- The stream is closed after the dispatcher has ended. -/
  | closes (event : e = .endClose ∨ e = .forceClose) (ended : c.dispatcher = .ended)
      (stopping : c.stopping = true) (state : after = c.endClose)

variable {c after : Client η} {e : Event η}

/-- A step that puts nothing into the queue goes on if it leaves the dispatcher and what goes out
alone. What it takes is added to what was received. -/
theorem Course.of_same (nothing : c.accepts e = []) (dispatcher : after.dispatcher = c.dispatcher)
    (accepted : after.accepted = c.accepted) (outbound : after.outbound = c.outbound)
    (received : after.received = c.received ++ c.taken e) (stream : c.stream.Alike after.stream)
    (pending : e.isRequest = false → after.pending ⊆ c.pending) : Course c e after := by
  refine .goesOn dispatcher ?_ ?_ received stream pending
  · rw [accepted, nothing, List.append_nil]
  · rw [outbound, nothing, List.append_nil]

/-- A step that leaves queue and stream alone and takes nothing is a course by itself: everything
goes on. -/
theorem Course.idle (nothing : c.accepts e = []) (taken : c.taken e = [])
    (dispatcher : after.dispatcher = c.dispatcher) (accepted : after.accepted = c.accepted)
    (outbound : after.outbound = c.outbound) (received : after.received = c.received)
    (stream : c.stream.Alike after.stream)
    (pending : e.isRequest = false → after.pending ⊆ c.pending) : Course c e after := by
  refine .of_same nothing dispatcher accepted outbound ?_ stream pending
  rw [received, taken, List.append_nil]

/-- A step that does nothing goes on. -/
theorem Course.refl (nothing : c.accepts e = []) (taken : c.taken e = []) : Course c e c :=
  .idle nothing taken rfl rfl rfl rfl (.refl _) fun _ => List.Subset.refl _

/-- A request is queued as long as the dispatcher runs. If it has ended, the call fails at once and
the request goes nowhere. -/
theorem course_request (c : Client η) (method : String) (params : Option Json) (shape : Shape) :
    Course c (.request method params shape) (c.request method params shape).2 := by
  unfold request
  dsimp only
  split
  · rename_i hended
    have hdispatcher : c.dispatcher = .ended := hended
    exact .idle (accepts_of_ended hdispatcher _) rfl rfl rfl rfl rfl (.refl _) nofun
  · rename_i hnot
    have haccepts : c.accepts (.request method params shape) =
        [.request { id := .nat (wireId (c.calls.length + 1)), method, params }] :=
      if_pos (running_of_ne_ended hnot)
    exact .goesOn rfl (haccepts ▸ rfl) (haccepts ▸ rfl) (List.append_nil _).symm (.refl _) nofun

/-- A notification is queued unless the dispatcher has ended. In that case it is refused, and the
client stays as it is. -/
theorem course_notify (c : Client η) (method : String) (params : Option Json) :
    Course c (.notify method params) (c.step (.notify method params)) := by
  by_cases hended : c.dispatcher = .ended
  · simp only [step, notify, if_pos hended]
    exact .refl (accepts_of_ended hended _) rfl
  · have haccepts : c.accepts (.notify method params) = [.notification { method, params }] := by
      rw [accepts, notify, if_neg hended]
    simp only [step, notify, if_neg hended]
    exact .goesOn rfl (haccepts ▸ rfl) (haccepts ▸ rfl) (List.append_nil _).symm (.refl _)
      fun _ => List.Subset.refl _

/-- A caller who looks takes entries out of the table and puts none in. It takes out its own, with
those that share its id, if it has timed out or was given up. -/
theorem pending_look_subset (c : Client η) (number : Nat) (f : Call → Call) :
    (c.look number f).pending ⊆ c.pending := by
  have herase : ∀ numbers : List Nat,
      (c.pending.erase number).filter (fun n => decide (n ∉ numbers)) ⊆ c.pending :=
    fun numbers => List.Subset.trans List.filter_sublist.subset List.erase_subset
  unfold look settleTable
  split
  · split
    · exact herase _
    · exact herase _
    · exact List.Subset.refl _
  · exact List.Subset.refl _

/-- A caller who looks changes calls and the table, and leaves everything else as it is. -/
theorem course_look (nothing : c.accepts e = []) (taken : c.taken e = []) (number : Nat)
    (f : Call → Call) : Course c e (c.look number f) := by
  have hpending := pending_look_subset c number f
  obtain ⟨calls, pending, -, heq⟩ := c.look_eq number f
  rw [heq] at hpending ⊢
  exact .idle nothing taken rfl rfl rfl rfl (.refl _) fun _ => hpending

/-- A payload that arrives is taken, and the answer to a request is queued. One case for each kind
of message, since what `accepts` foretells depends on it. -/
theorem course_accept {payload : List Char} (harrives : c.Arrives payload) (framing : Framing)
    (incoming : List (List Char)) :
    Course c .receiveNext (({ c with framing, stream := { c.stream with incoming } } :
      Client η).accept payload) := by
  have hstream : c.stream.Alike { c.stream with incoming } := ⟨rfl, rfl, rfl, rfl, rfl⟩
  have same : ∀ {s : List Nat}, (.receiveNext : Event η).isRequest = false → s ⊆ s :=
    fun _ => List.Subset.refl _
  have haccepts : c.accepts .receiveNext = ((c.reply? payload).map Message.response).toList := by
    rw [accepts, arriving?_eq_some.mpr harrives, Option.bind_some]
  have hreceived : c.received ++ [payload] = c.received ++ c.taken .receiveNext := by
    rw [taken, arriving?_eq_some.mpr harrives, Option.toList_some]
  unfold reply? at haccepts
  unfold accept
  cases hparse : Message.parse payload with
  | error e =>
    -- A payload that is no message is taken all the same.
    rw [hparse] at haccepts
    exact .of_same haccepts rfl rfl rfl hreceived hstream same
  | ok m =>
    rw [hparse] at haccepts
    cases m with
    | request r =>
      dsimp only [Option.map_some, Option.toList] at haccepts ⊢
      unfold answerTo at haccepts
      unfold acceptRequest
      -- Somebody answers, or no method is known.
      cases hreplier : c.replier with
      | some reply =>
        rw [hreplier] at haccepts
        exact .goesOn rfl (haccepts ▸ rfl) (haccepts ▸ rfl) hreceived hstream same
      | none =>
        rw [hreplier] at haccepts
        exact .goesOn rfl (haccepts ▸ rfl) (haccepts ▸ rfl) hreceived hstream same
    | notification n =>
      -- A notification is never answered, handler or not.
      dsimp only
      unfold acceptNotification
      split
      · exact .of_same haccepts rfl rfl rfl hreceived hstream same
      · exact .of_same haccepts rfl rfl rfl hreceived hstream same
    | response r =>
      -- Nor is a response. It takes its call out of the table, if there is one.
      dsimp only
      unfold acceptResponse
      split
      · exact .of_same haccepts rfl rfl rfl hreceived hstream fun _ => List.erase_subset
      · exact .of_same haccepts rfl rfl rfl hreceived hstream same

/-- What the dispatcher reads is a payload, or nothing, or the end of the stream. A payload is
taken, nothing leaves it waiting, and a fault or the end of the stream ends it. -/
theorem course_receiveNext (c : Client η) : Course c .receiveNext c.receiveNext := by
  unfold receiveNext
  split
  · -- An ended dispatcher reads nothing more.
    rename_i hended
    exact .refl (accepts_of_ended hended _) (taken_of_ended hended _)
  · rename_i hnot
    have hrunning := running_of_ne_ended hnot
    dsimp only
    generalize hreceive :
      c.framing.receive (if c.stream.connected then c.stream.incoming else []) = taken
    obtain ⟨reception, framing, rest⟩ := taken
    -- Without a payload nothing arrives, and no answer is foretold.
    have hnothing : (∀ payload, reception ≠ .message payload) → c.arriving? = none := by
      intro hno
      rw [Option.eq_none_iff_forall_ne_some]
      intro payload hsome
      exact hno payload ((congrArg Prod.fst hreceive).symm.trans (arriving?_eq_some.mp hsome).2)
    cases reception with
    | message payload => exact course_accept ⟨hrunning, congrArg Prod.fst hreceive⟩ framing rest
    | failed e =>
      -- What came cannot be read, which ends the dispatcher like a lost stream.
      exact .loses framing rest c.stream.connected _ rfl hrunning (hnothing nofun) rfl
    | exhausted =>
      -- Nothing was complete, so it depends on what the stream still has.
      have waits : ∀ incoming : List (List Char), Course c .receiveNext
          ({ c with framing, stream := { c.stream with incoming } } : Client η) := by
        intro incoming
        have haccepts : c.accepts .receiveNext = [] := by
          rw [accepts, hnothing nofun]
          rfl
        have htaken : c.taken .receiveNext = [] := by
          rw [taken, hnothing nofun]
          rfl
        exact .idle haccepts htaken rfl rfl rfl rfl ⟨rfl, rfl, rfl, rfl, rfl⟩
          fun _ => List.Subset.refl _
      dsimp only
      rcases ({ c.stream with incoming := rest } : Stream).take_cases with
        ⟨connected, htake⟩ | ⟨what, incoming, hwhat, htake⟩
      · rw [htake]
        exact .loses framing rest connected _ rfl hrunning (hnothing nofun) rfl
      · rw [htake]
        cases what with
        | ended => exact absurd rfl hwhat
        | waiting => exact waits incoming
        | chunk text => exact waits incoming

/-- The first message that is queued is moved, if the stream takes it; if not, the dispatcher
ends. -/
theorem course_sendNext (c : Client η) : Course c .sendNext c.sendNext := by
  unfold sendNext
  split
  · rename_i m rest hrunning houtbound
    cases htakes : c.stream.takes with
    | true =>
      rw [Stream.send_of_takes htakes]
      exact .moves m rest rfl hrunning houtbound htakes rfl
    | false =>
      cases hsend : c.stream.send (Framing.frame m.payload) with
      -- A stream that refuses does not accept this message.
      | ok stream => exact absurd (htakes.symm.trans (Stream.takes_of_send hsend)) Bool.noConfusion
      | error e => exact .fails _ rfl hrunning htakes rfl
  · exact .refl rfl rfl

/-- Every event takes one of the courses. It is the one lemma that looks at all events, and what
follows reads it. -/
theorem course_step (c : Client η) (e : Event η) : Course c e (c.step e) := by
  have same : ∀ {s : List Nat}, e.isRequest = false → s ⊆ s := fun _ => List.Subset.refl _
  cases e with
  | request method params shape => exact course_request c method params shape
  | notify method params => exact course_notify c method params
  | resume number => exact course_look rfl rfl number Call.resume
  | expire number => exact course_look rfl rfl number Call.expire
  | abandon number => exact .idle rfl rfl rfl rfl rfl rfl (.refl _) same
  | cancelAll => exact .idle rfl rfl rfl rfl rfl rfl (.refl _) fun _ => List.filter_sublist.subset
  | onNotification => exact .idle rfl rfl rfl rfl rfl rfl (.refl _) same
  | onRequest => exact .idle rfl rfl rfl rfl rfl rfl (.refl _) same
  | sendNext => exact course_sendNext c
  | receiveNext => exact course_receiveNext c
  | stop =>
    -- Only a dispatcher that was asked to stop and runs does so.
    show Course c _ c.stop
    unfold stop
    split
    · rename_i hstop
      exact .stops rfl hstop.1 hstop.2 rfl
    · exact .refl rfl rfl
  -- To begin with, closing only cancels the calls. The dispatcher is asked to stop, and runs on.
  | beginClose => exact .idle rfl rfl rfl rfl rfl rfl (.refl _) fun _ => List.filter_sublist.subset
  | endClose =>
    simp only [step]
    split
    · rename_i hclose
      exact .closes (.inl rfl) hclose.2 hclose.1 rfl
    · exact .refl rfl rfl
  | forceClose =>
    -- A dispatcher that has not ended by now is cut off.
    simp only [step, forceClose]
    split
    · rename_i hstopping
      split
      · exact .cuts [stopOverdue] (.inl ⟨rfl, hstopping⟩) rfl
      · rename_i hnot
        have hended : c.dispatcher = .ended := by
          cases hcase : c.dispatcher with
          | running => exact absurd hcase hnot
          | ended => rfl
        exact .closes (.inr rfl) hended hstopping rfl
    · exact .refl rfl rfl
  | drop =>
    -- The owner is gone, and says nothing about it.
    refine .cuts [] (.inr rfl) ?_
    rw [say, List.append_nil]
    rfl
  | write refusal => exact .writes refusal rfl rfl
  | deliver portion => exact .idle rfl rfl rfl rfl rfl rfl (Stream.alike_deliver _ portion) same
  | finish => exact .idle rfl rfl rfl rfl rfl rfl (Stream.alike_finish _) same
  | breakOff cause => exact .idle rfl rfl rfl rfl rfl rfl (Stream.alike_breakOff _ cause) same

/-- The record grows by what the event takes and by what it puts into the queue, and by nothing
else. Both are functions of the state and the event, so a run can be told by what its events do. -/
theorem record_step (c : Client η) (e : Event η) :
    (c.step e).accepted = c.accepted ++ c.accepts e ∧
      (c.step e).received = c.received ++ c.taken e := by
  -- Most courses move what has been recorded already: they take nothing and queue nothing.
  have same : ∀ {after : Client η}, after.accepted = c.accepted → after.received = c.received →
      c.accepts e = [] → c.taken e = [] →
      after.accepted = c.accepted ++ c.accepts e ∧ after.received = c.received ++ c.taken e := by
    intro after haccepted hreceived hnothing hnone
    rw [haccepted, hreceived, hnothing, hnone, List.append_nil, List.append_nil]
    exact ⟨rfl, rfl⟩
  cases course_step c e with
  | goesOn dispatcher accepted outbound received => exact ⟨accepted, received⟩
  | writes refusal event state => exact same (state ▸ rfl) (state ▸ rfl) (event ▸ rfl) (event ▸ rfl)
  | moves m rest event running outbound takes state =>
    exact same (state ▸ rfl) (state ▸ rfl) (event ▸ rfl) (event ▸ rfl)
  | fails notices event running refuses state =>
    exact same (state ▸ rfl) (state ▸ rfl) (event ▸ rfl) (event ▸ rfl)
  | loses framing incoming connected notices event running nothing state =>
    -- The stream ended, or held a fault, where a message was awaited. So nothing was received.
    subst event
    refine same (state ▸ rfl) (state ▸ rfl) ?_ ?_
    · rw [accepts, nothing]
      rfl
    · rw [taken, nothing]
      rfl
  | stops event running stopping state =>
    exact same (state ▸ rfl) (state ▸ rfl) (event ▸ rfl) (event ▸ rfl)
  | cuts notices event state =>
    rcases event with ⟨rfl, -⟩ | rfl
    · exact same (state ▸ rfl) (state ▸ rfl) rfl rfl
    · exact same (state ▸ rfl) (state ▸ rfl) rfl rfl
  | closes event ended stopping state =>
    -- The dispatcher has ended, and one that has ended takes nothing from any event.
    exact same (state ▸ rfl) (state ▸ rfl) (accepts_of_ended ended e) (taken_of_ended ended e)

/-! ### Between two steps -/

/-- Once a write has failed, nothing is written any more: no event starts the writer again. Only two
of the courses touch the writer at all, a write and the flush of a shutdown. -/
theorem Course.failed (h : Course c e after) (hfailed : c.stream.writer = .failed) :
    after.stream.writer = .failed := by
  cases h with
  | goesOn dispatcher accepted outbound received stream => exact stream.writer.trans hfailed
  | writes refusal event state =>
    rw [state]
    -- A writer that has failed is not asked again.
    show (c.stream.write refusal).1.writer = .failed
    rw [Stream.failed_write hfailed, hfailed]
  | moves m rest event running outbound takes state =>
    rw [state]
    exact hfailed
  | fails notices event running refuses state =>
    rw [state]
    exact hfailed
  | loses framing incoming connected notices event running nothing state =>
    rw [state]
    exact hfailed
  | stops event running stopping state =>
    -- The stream refuses what the shutdown would flush, so flushing leaves it as it is.
    have hrefuses : c.stream.takes = false := by
      rw [Stream.takes, hfailed]
      exact Bool.and_false _
    rw [state]
    show (flush c.stream c.outbound).writer = .failed
    rw [flush_of_not_takes hrefuses, hfailed]
  | cuts notices event state =>
    rw [state]
    exact hfailed
  | closes event ended stopping state =>
    rw [state]
    exact hfailed

/-- A dispatcher that has ended does not begin again. The courses that end it are possible only
while it runs. -/
theorem Course.ended (h : Course c e after) (hended : c.dispatcher = .ended) :
    after.dispatcher = .ended := by
  cases h with
  | goesOn dispatcher => exact dispatcher.trans hended
  | writes refusal event state =>
    rw [state]
    exact hended
  -- Only a dispatcher that runs moves messages.
  | moves m rest event running => exact nomatch running.symm.trans hended
  | fails notices event running refuses state =>
    rw [state]
    rfl
  | loses framing incoming connected notices event running nothing state =>
    rw [state]
    rfl
  | stops event running stopping state =>
    rw [state]
    rfl
  | cuts notices event state =>
    rw [state]
    rfl
  | closes event ended stopping state =>
    rw [state]
    exact hended

namespace Client

/-- What holds between two steps: the stream is open as long as the dispatcher runs, and
afterwards nothing is queued. -/
structure Orderly (c : Client η) : Prop where
  connected : c.dispatcher = .running → c.stream.connected = true
  isOpen : c.dispatcher = .running → c.stream.isOpen = true
  outbound : c.dispatcher = .ended → c.outbound = []
  tidy : c.stream.Tidy

/-- After the dispatcher only the stream counts. -/
theorem Orderly.of_ended (dispatcher : c.dispatcher = .ended) (outbound : c.outbound = [])
    (tidy : c.stream.Tidy) : c.Orderly := by
  refine ⟨fun hrunning => ?_, fun hrunning => ?_, fun _ => outbound, tidy⟩
  · exact nomatch dispatcher.symm.trans hrunning
  · exact nomatch dispatcher.symm.trans hrunning

/-- Every event keeps the stream and the queue in order. One case for each course, and those that
end the dispatcher leave nothing queued. -/
theorem Orderly.step (h : c.Orderly) (e : Event η) : (c.step e).Orderly := by
  have hcourse := course_step c e
  generalize c.step e = after at hcourse ⊢
  cases hcourse with
  | goesOn dispatcher accepted outbound received stream =>
    -- An ended dispatcher has nothing queued, and nothing is added then.
    refine ⟨fun hrunning => ?_, fun hrunning => ?_, fun hended => ?_, stream.tidy h.tidy⟩
    · rw [stream.connected]
      exact h.connected (dispatcher ▸ hrunning)
    · rw [stream.isOpen]
      exact h.isOpen (dispatcher ▸ hrunning)
    · rw [dispatcher] at hended
      rw [outbound, h.outbound hended, accepts_of_ended hended, List.append_nil]
  | writes refusal event state =>
    subst state
    obtain ⟨hconnected, hopen⟩ := c.stream.write_owner refusal
    exact ⟨fun hrunning => hconnected.trans (h.connected hrunning),
      fun hrunning => hopen.trans (h.isOpen hrunning), h.outbound, Stream.tidy_write h.tidy refusal⟩
  | moves m rest event running outbound takes state =>
    -- Only a running dispatcher moves messages, and only to a writer that runs too.
    subst state
    refine ⟨h.connected, h.isOpen, fun hended => ?_, ?_⟩
    · exact nomatch running.symm.trans hended
    · exact Stream.tidy_of_running (Stream.writer_of_takes takes)
  | fails notices event running refuses state =>
    subst state
    exact .of_ended rfl rfl h.tidy
  | loses framing incoming connected notices event running nothing state =>
    subst state
    exact .of_ended rfl rfl ⟨h.tidy.failed, h.tidy.finished⟩
  | stops event running stopping state =>
    subst state
    refine .of_ended rfl rfl ?_
    -- What is flushed waits for the writer, or was refused by one that has failed.
    show (flush c.stream c.outbound).Tidy
    cases htakes : c.stream.takes with
    | true =>
      rw [flush_of_takes htakes]
      exact Stream.tidy_of_running (Stream.writer_of_takes htakes)
    | false =>
      rw [flush_of_not_takes htakes]
      exact h.tidy
  | cuts notices event state =>
    -- Once it has ended, only an empty queue is asked for, and closing keeps the stream tidy.
    subst state
    exact .of_ended rfl rfl (Stream.tidy_close h.tidy)
  | closes event ended stopping state =>
    subst state
    exact .of_ended ended (h.outbound ended) (Stream.tidy_close h.tidy)

/-- Only a stream that nobody moves messages to is closed. So nothing is left behind in the queue by
closing. -/
theorem Orderly.outbound_of_closed (h : c.Orderly) (hclosed : c.stream.isOpen = false) :
    c.outbound = [] := by
  cases hdispatcher : c.dispatcher with
  | ended => exact h.outbound hdispatcher
  | running => exact nomatch hclosed.symm.trans (h.isOpen hdispatcher)

/-- Only a failed write makes the stream refuse a message. While the dispatcher runs the stream is
open, and its writer does not finish. -/
theorem Orderly.takes (h : c.Orderly) (hrunning : c.dispatcher = .running)
    (hwriter : c.stream.writer ≠ .failed) : c.stream.takes = true := by
  rw [Stream.takes, h.connected hrunning, Bool.true_and, beq_iff_eq]
  cases hcase : c.stream.writer with
  | running => rfl
  | failed => exact absurd hcase hwriter
  | finished => exact absurd ((h.isOpen hrunning).symm.trans (h.tidy.finished hcase).2) nofun

/-- Whether an event ends the dispatcher. -/
def ends (c : Client η) (e : Event η) : Bool :=
  c.dispatcher == .running && (c.step e).dispatcher == .ended

/-- What it means for an event to end the dispatcher. -/
theorem ends_iff : c.ends e = true ↔ c.dispatcher = .running ∧ (c.step e).dispatcher = .ended := by
  rw [ends, Bool.and_eq_true, beq_iff_eq, beq_iff_eq]

/-- A dispatcher ends once. -/
theorem ends_of_ended (h : c.dispatcher = .ended) (e : Event η) : c.ends e = false := by
  rw [ends, h]
  rfl

end Client

/-! ### Runs -/

/-- The stream and the queue are in order after any run. -/
theorem orderly_run (events : List (Event η)) : (ran events).Orderly := by
  induction events using List.reverseRecOn with
  | nil => exact ⟨fun _ => rfl, fun _ => rfl, nofun, nofun, nofun⟩
  | append_singleton events e ih =>
    rw [ran, run_concat]
    exact ih.step e

/-- A failed writer stays failed. -/
theorem failed_run (events : List (Event η)) (hfailed : c.stream.writer = .failed) :
    (c.run events).stream.writer = .failed := by
  induction events generalizing c with
  | nil => exact hfailed
  | cons e events ih => exact ih ((course_step c e).failed hfailed)

/-- An ended dispatcher stays ended. -/
theorem ended_run (events : List (Event η)) (hended : c.dispatcher = .ended) :
    (c.run events).dispatcher = .ended := by
  induction events generalizing c with
  | nil => exact hended
  | cons e events ih => exact ih ((course_step c e).ended hended)

end Rpc

end LanguageClient
