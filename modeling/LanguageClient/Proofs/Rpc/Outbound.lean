import LanguageClient.Proofs.Rpc.Course

/-!
# `LanguageClient.Proofs.Rpc.Outbound`: messages on their way out

A message is accepted into the queue, given to the stream and written. It can go astray in
two places: the dispatcher ends while the message waits, or a write fails.

* `endedBy`: why the dispatcher has ended in a run. `dropped`: the messages that were in the
  queue by then and were not moved.
* `shipped_run`: what was accepted is what the stream was given, then what was dropped, then
  what waits. `dropped_eq_nil`: as long as no write fails, nothing is dropped unless the other
  end is lost or the dispatcher is cut off.
* `stop_eq_run`: a dispatcher that is asked to stop moves what waits as single steps would.
* `delivered`: order, no loss and the end of the stream, for every run.

The dispatcher is cut off when it takes too long to stop, or when the client is dropped
without being closed. What waited is given up then, and is counted here as it was.
-/

set_option autoImplicit false

namespace LanguageClient.Rpc

variable {η : Type} {c after : Client η} {e : Event η}

open Client

/-! ### How the dispatcher has ended -/

/-- Why a dispatcher has ended. -/
inductive Cause where
  /-- The stream took no more messages. -/
  | refused
  /-- The other end had gone, or what came from it could not be read. -/
  | lost
  /-- It was asked to stop. -/
  | asked
  /-- It took too long to stop, or its client was dropped. -/
  | cutOff
  deriving DecidableEq, Repr

/-- Why the dispatcher has ended, if this event ends it. -/
def Event.cause : Event η → Cause
  | .sendNext => .refused
  | .receiveNext => .lost
  | .stop => .asked
  | _ => .cutOff

namespace Client

/-- Why the dispatcher ends in the course of events, if it does. -/
def endingIn (c : Client η) : List (Event η) → Option Cause
  | [] => none
  | e :: events => if c.ends e then some e.cause else (c.step e).endingIn events

/-- The messages that an event takes out of the queue without moving them. A dispatcher that
is asked to stop moves what is queued. -/
def loss (c : Client η) (e : Event η) : List Message :=
  if c.ends e ∧ ¬ (e.cause = .asked ∧ c.stream.takes) then c.outbound else []

/-- The messages that are dropped in the course of events. -/
def droppedIn (c : Client η) : List (Event η) → List Message
  | [] => []
  | e :: events => c.loss e ++ (c.step e).droppedIn events

/-- The last event matters for the cause only if the dispatcher has not ended before. It ends once,
and the cause is that of the event that ends it. -/
theorem endingIn_concat (c : Client η) (events : List (Event η)) (e : Event η) :
    c.endingIn (events ++ [e]) =
      (c.endingIn events).or (if (c.run events).ends e then some e.cause else none) := by
  induction events generalizing c with
  | nil => rfl
  | cons first events ih =>
    rw [List.cons_append, endingIn, endingIn, ih]
    split
    · rfl
    · rfl

/-- The last event drops its part behind what was dropped before. What it drops depends on the state
that the others have led to. -/
theorem droppedIn_concat (c : Client η) (events : List (Event η)) (e : Event η) :
    c.droppedIn (events ++ [e]) = c.droppedIn events ++ (c.run events).loss e := by
  induction events generalizing c with
  | nil => exact List.append_nil _
  | cons first events ih =>
    rw [List.cons_append, droppedIn, droppedIn, ih, List.append_assoc]
    rfl

end Client

/-- Why the dispatcher has ended in a run, if it has. -/
def endedBy (events : List (Event η)) : Option Cause := ({} : Client η).endingIn events

/-- The messages that were dropped in a run: they were accepted and will not be moved. -/
def dropped (events : List (Event η)) : List Message := ({} : Client η).droppedIn events

/-- The cause that a whole run gives for the end of the dispatcher: the last event matters only if
it has not ended before. -/
theorem endedBy_concat (events : List (Event η)) (e : Event η) :
    endedBy (events ++ [e]) =
      (endedBy events).or (if (ran events).ends e then some e.cause else none) :=
  endingIn_concat _ events e

/-- The event that comes last in a whole run adds its loss to what was dropped before. -/
theorem dropped_concat (events : List (Event η)) (e : Event η) :
    dropped (events ++ [e]) = dropped events ++ (ran events).loss e := droppedIn_concat _ events e

/-- The dispatcher has ended just when something has ended it: the state alone tells whether there
is a cause. -/
theorem ended_iff (events : List (Event η)) :
    (ran events).dispatcher = .ended ↔ (endedBy events).isSome = true := by
  induction events using List.reverseRecOn with
  | nil =>
    constructor
    · intro hended
      cases hended
    · intro hsome
      cases hsome
  | append_singleton events e ih =>
    rw [endedBy_concat, ran, run_concat, Option.isSome_or]
    cases hdispatcher : (ran events).dispatcher with
    | running =>
      -- It runs before the last event, so that event decides.
      have hnone : (endedBy events).isSome = false := by
        rw [← Bool.not_eq_true, ← ih, hdispatcher]
        decide
      rw [hnone, Bool.false_or]
      split
      · rename_i hends
        exact ⟨fun _ => rfl, fun _ => (ends_iff.mp hends).2⟩
      · rename_i hends
        exact ⟨fun hended => absurd (ends_iff.mpr ⟨hdispatcher, hended⟩) hends,
          fun hsome => by cases hsome⟩
    | ended =>
      rw [ih.mp hdispatcher]
      exact ⟨fun _ => rfl, fun _ => (course_step _ e).ended hdispatcher⟩

/-! ### What becomes of a message -/

/-- What was accepted was given to the stream or dropped, or it waits. -/
structure Client.Shipped (c : Client η) (gone : List Message) : Prop where
  whole : ∃ given, c.accepted = given ++ gone ++ c.outbound ∧
    c.stream.Carried (given.map Message.frame)
  running : c.dispatcher = .running → gone = []

/-- An event that ends the dispatcher drops what waits in the queue, unless the dispatcher was asked
to stop and the stream takes what is left. -/
theorem loss_of_ends (h : c.ends e = true) (hnot : e.cause ≠ .asked ∨ c.stream.takes = false) :
    c.loss e = c.outbound := by
  refine if_pos ⟨h, ?_⟩
  rintro ⟨hasked, htakes⟩
  rcases hnot with hnot | hnot
  · exact hnot hasked
  · exact Bool.noConfusion (htakes.symm.trans hnot)

/-- An event that does not end the dispatcher drops nothing. -/
theorem loss_of_not_ends (h : c.ends e = false) : c.loss e = [] :=
  if_neg fun hloss => Bool.noConfusion (h.symm.trans hloss.1)

/-- A dispatcher that stops because it was asked to moves what waits, and so drops nothing, as long
as the stream takes messages. -/
theorem loss_of_flush (h : e.cause = .asked) (htakes : c.stream.takes = true) : c.loss e = [] :=
  if_neg fun hloss => hloss.2 ⟨h, htakes⟩

/-- A step that leaves the dispatcher as it is drops nothing. For most courses this is how the loss
is known. -/
theorem loss_of_same (h : (c.step e).dispatcher = c.dispatcher) : c.loss e = [] := by
  refine loss_of_not_ends (Bool.eq_false_iff.mpr fun hends => ?_)
  obtain ⟨hrunning, hended⟩ := ends_iff.mp hends
  exact nomatch (hrunning.symm.trans h.symm).trans hended

variable {gone : List Message}

/-- What waits is dropped when the dispatcher ends. The queue moves behind what is gone already.
Nothing was gone before if the dispatcher was running, and nothing waits if it was not, so in both
cases the messages stay in order. -/
theorem Client.Shipped.drop (h : c.Shipped gone) (horderly : c.Orderly)
    (hloss : c.dispatcher = .running → c.loss e = c.outbound)
    (accepted : after.accepted = c.accepted) (outbound : after.outbound = [])
    (dispatcher : after.dispatcher = .ended)
    (stream : ∀ texts, c.stream.Carried texts → after.stream.Carried texts) :
    after.Shipped (gone ++ c.loss e) := by
  obtain ⟨given, hgiven, hcarried⟩ := h.whole
  refine ⟨⟨given, ?_, stream _ hcarried⟩, fun hrunning => nomatch dispatcher.symm.trans hrunning⟩
  rw [accepted, outbound, hgiven, List.append_nil, List.append_assoc]
  congr 2
  cases hdispatcher : c.dispatcher with
  | running => exact (hloss hdispatcher).symm
  | ended => rw [horderly.outbound hdispatcher, loss_of_not_ends (ends_of_ended hdispatcher e)]

/-- Every event keeps the account of what was accepted. A message is added to the queue, moved from
the queue to the stream, or dropped together with all that waits. The last happens only when the
dispatcher ends, so what the stream is given and what is dropped never alternate. -/
theorem Client.Shipped.step (h : c.Shipped gone) (horderly : c.Orderly) (e : Event η) :
    (c.step e).Shipped (gone ++ c.loss e) := by
  have hcourse := course_step c e
  -- Nothing is dropped as long as the dispatcher stays as it is.
  have hkeeps : (c.step e).dispatcher = c.dispatcher → gone ++ c.loss e = gone :=
    fun hsame => by rw [loss_of_same hsame, List.append_nil]
  have hends : c.dispatcher = .running → (c.step e).dispatcher = .ended → c.ends e = true :=
    fun hrunning hended => ends_iff.mpr ⟨hrunning, hended⟩
  obtain ⟨given, hgiven, hcarried⟩ := h.whole
  generalize c.step e = after at hcourse hkeeps hends ⊢
  cases hcourse with
  | goesOn dispatcher accepted outbound received stream =>
    -- What is accepted now goes to the end of the queue, and the stream is given nothing.
    rw [hkeeps dispatcher]
    refine ⟨⟨given, ?_, stream.carried hcarried⟩, fun hrunning => h.running (dispatcher ▸ hrunning)⟩
    rw [accepted, outbound, hgiven, List.append_assoc (given ++ gone)]
  | writes refusal event state =>
    -- Writing moves texts from one end of the stream to the other. The stream carries the same.
    subst state
    rw [hkeeps rfl]
    exact ⟨⟨given, hgiven, Stream.carried_write hcarried refusal⟩, h.running⟩
  | moves m rest event running outbound takes state =>
    -- The first message of the queue becomes the last one given. That needs `gone` to be empty,
    -- which it is while the dispatcher runs.
    subst state
    rw [hkeeps rfl]
    refine ⟨⟨given ++ [m], ?_, ?_⟩, h.running⟩
    · rw [h.running running, List.append_nil] at hgiven ⊢
      rw [hgiven, outbound, List.append_assoc, List.singleton_append]
    · rw [List.map_append, List.map_singleton]
      exact Stream.carried_send hcarried (Stream.send_of_takes takes _)
  | fails notices event running refuses state =>
    -- The stream refuses the message. It is lost with the queue, and the stream is given nothing.
    subst state
    have hloss := loss_of_ends (hends running rfl) (.inr refuses)
    exact h.drop horderly (fun _ => hloss) rfl rfl rfl fun _ => id
  | loses framing incoming connected notices event running nothing state =>
    -- The other end is gone, and so is what waits. Only the reading side of the stream is changed.
    subst event state
    have hloss := loss_of_ends (hends running rfl) (.inl nofun)
    exact h.drop horderly (fun _ => hloss) rfl rfl rfl fun _ hc => hc.congr rfl rfl rfl
  | stops event running stopping state =>
    -- What waits is given to the stream all at once, or lost if the stream refuses it.
    subst event state
    cases htakes : c.stream.takes with
    | false =>
      have hloss := loss_of_ends (hends running rfl) (.inr htakes)
      rw [flush_of_not_takes htakes]
      exact h.drop horderly (fun _ => hloss) rfl rfl rfl fun _ => id
    | true =>
      -- All that waited is given to the stream.
      rw [loss_of_flush rfl htakes, List.append_nil, h.running running]
      rw [h.running running, List.append_nil] at hgiven
      refine ⟨⟨given ++ c.outbound, ?_, ?_⟩, nofun⟩
      · rw [List.append_nil]
        exact hgiven.trans (List.append_nil _).symm
      · rw [List.map_append]
        show (flush c.stream c.outbound).Carried _
        rw [flush_of_takes htakes]
        exact hcarried.extend (Stream.writer_of_takes htakes) _
  | cuts notices event state =>
    -- Cutting the dispatcher off drops the queue. If it had ended before, nothing waits and nothing
    -- is dropped.
    subst state
    refine h.drop horderly (fun hrunning => loss_of_ends (hends hrunning rfl) (.inl ?_)) rfl rfl rfl
      fun _ hc => hc.congr rfl rfl rfl
    rcases event with ⟨rfl, -⟩ | rfl
    · exact nofun
    · exact nofun
  | closes event ended stopping state =>
    -- Closing comes after the end of the dispatcher, and what the stream carries stays.
    subst state
    rw [hkeeps rfl]
    exact ⟨⟨given, hgiven, hcarried.congr rfl rfl rfl⟩, h.running⟩

/-- Nothing that was accepted is lost out of sight, in any run: it was given to the stream, it was
dropped when the dispatcher ended, or it waits. -/
theorem shipped_run (events : List (Event η)) : (ran events).Shipped (dropped events) := by
  induction events using List.reverseRecOn with
  | nil => exact ⟨⟨[], rfl, List.prefix_rfl, fun _ => rfl⟩, fun _ => rfl⟩
  | append_singleton events e ih =>
    rw [dropped_concat, ran, run_concat]
    exact ih.step (orderly_run events) e

/-- Sending ends the dispatcher only if the stream refuses the message. -/
theorem dispatcher_sendNext (htakes : c.stream.takes = true) :
    c.sendNext.dispatcher = c.dispatcher := by
  unfold sendNext
  split
  · rw [Stream.send_of_takes htakes]
  · rfl

/-- As long as no write has failed, messages are dropped only when the other end is lost or the
dispatcher is cut off. What is left is sending, which the stream does not refuse, and stopping,
which moves what waits. -/
theorem loss_eq_nil (h : c.Orderly) (hwriter : c.stream.writer ≠ .failed)
    (hcause : c.ends e = true → e.cause ≠ .lost ∧ e.cause ≠ .cutOff) : c.loss e = [] := by
  cases hends : c.ends e with
  | false => exact loss_of_not_ends hends
  | true =>
    obtain ⟨hrunning, hended⟩ := ends_iff.mp hends
    obtain ⟨hlost, hcut⟩ := hcause hends
    have htakes := h.takes hrunning hwriter
    cases e with
    -- A stop moves what waits; a look for more ends it only by a loss, which is excluded; a send is
    -- taken. All else cuts it off.
    | stop => exact loss_of_flush rfl htakes
    | receiveNext => exact absurd rfl hlost
    | sendNext => exact loss_of_same (dispatcher_sendNext htakes)
    | _ => exact absurd rfl hcut

/-- As long as no write fails, nothing is dropped in a run unless the other end is lost or the
dispatcher is cut off. A writer that has not failed by the end of the run had not failed at any
moment of it. -/
theorem dropped_eq_nil (events : List (Event η)) (hwriter : (ran events).stream.writer ≠ .failed)
    (hlost : endedBy events ≠ some .lost) (hcut : endedBy events ≠ some .cutOff) :
    dropped events = [] := by
  induction events using List.reverseRecOn with
  | nil => rfl
  | append_singleton events e ih =>
    have hbefore : (ran events).stream.writer ≠ .failed := by
      intro hfailed
      refine hwriter ?_
      rw [ran, run_concat]
      exact (course_step _ e).failed hfailed
    rw [endedBy_concat] at hlost hcut
    rw [dropped_concat]
    cases hending : endedBy events with
    | some cause =>
      -- The dispatcher has ended before, and there is nothing left to lose.
      rw [hending, Option.some_or] at hlost hcut
      have hended := (ended_iff events).mpr (hending ▸ rfl)
      rw [ih hbefore (hending ▸ hlost) (hending ▸ hcut),
        loss_of_not_ends (ends_of_ended hended e), List.append_nil]
    | none =>
      -- The dispatcher has not ended before. If the last event ends it, then for a cause that drops
      -- nothing.
      rw [hending, Option.none_or] at hlost hcut
      have hnot : ∀ cause, endedBy events ≠ some cause := by
        intro cause hcause
        rw [hending] at hcause
        cases hcause
      rw [ih hbefore (hnot _) (hnot _), List.nil_append]
      refine loss_eq_nil (orderly_run events) hbefore fun hends =>
        ⟨fun hcause => ?_, fun hcause => ?_⟩
      · exact hlost (by rw [if_pos hends, hcause])
      · exact hcut (by rw [if_pos hends, hcause])

/-- What waited when the dispatcher ended is all that a run drops: before it nothing is dropped, and
after it nothing waits. -/
theorem dropped_of_ends {before after : List (Event η)} (hends : (ran before).ends e = true) :
    dropped (before ++ e :: after) = (ran before).loss e := by
  have hrunning := (shipped_run before).running (ends_iff.mp hends).1
  induction after using List.reverseRecOn with
  | nil => rw [dropped_concat, hrunning, List.nil_append]
  | append_singleton after last ih =>
    have hended : (ran (before ++ e :: after)).dispatcher = .ended := by
      rw [ran, run_append]
      exact ended_run after (ends_iff.mp hends).2
    rw [← List.cons_append, ← List.append_assoc, dropped_concat, ih,
      loss_of_not_ends (ends_of_ended hended last), List.append_nil]

/-- What has been written and what is to be written, with what was dropped in between, is what was
accepted, in the same order. -/
theorem frames_run (events : List (Event η)) (hwriter : (ran events).stream.writer ≠ .failed) :
    (ran events).stream.written ++ (ran events).stream.outgoing ++
        (dropped events ++ (ran events).outbound).map Message.frame =
      (ran events).accepted.map Message.frame := by
  obtain ⟨given, hgiven, hcarried⟩ := (shipped_run events).whole
  rw [hcarried.whole hwriter, hgiven, ← List.map_append, List.append_assoc]

/-! ### Stopping -/

/-- A client whose waiting messages have been moved to its stream. -/
def Client.moved (c : Client η) : Client η :=
  { c with
    stream := { c.stream with outgoing := c.stream.outgoing ++ c.outbound.map Message.frame }
    outbound := [] }

/-- As many steps as messages wait move them all. The induction is on the length of the queue; each
step moves the first message and leaves the dispatcher running. -/
theorem run_sendNext (hrunning : c.dispatcher = .running) (htakes : c.stream.takes = true) :
    c.run (List.replicate c.outbound.length .sendNext) = c.moved := by
  generalize hlength : c.outbound.length = n
  induction n generalizing c with
  | zero =>
    have houtbound := List.eq_nil_of_length_eq_zero hlength
    show c = c.moved
    rw [moved, houtbound, List.map_nil, List.append_nil, ← houtbound]
  | succ n ih =>
    obtain ⟨m, rest, houtbound⟩ := List.exists_cons_of_length_eq_add_one hlength
    -- The stream takes the first message, and the rest of the queue is one shorter.
    have hnext : c.sendNext =
        { c with
          stream := { c.stream with outgoing := c.stream.outgoing ++ [m.frame] }
          outbound := rest } := by
      unfold sendNext
      rw [hrunning, houtbound]
      dsimp only
      rw [Stream.send_of_takes htakes]
      rfl
    have hrest : c.sendNext.outbound.length = n := by
      rw [houtbound, List.length_cons] at hlength
      rw [hnext]
      exact Nat.succ.inj hlength
    -- Sending changes neither the dispatcher nor whether the stream takes more, so the hypothesis
    -- applies to what is left.
    have hmoved := ih (c := c.sendNext) (hnext ▸ hrunning) (hnext ▸ htakes) hrest
    rw [List.replicate_succ]
    show c.sendNext.run _ = _
    rw [hmoved, hnext, moved, moved, houtbound, List.map_cons, List.append_assoc]
    rfl

/-- A dispatcher that is asked to stop moves what waits, message by message, and ends. So stopping
is nothing but sending until the queue is empty, and then the end. -/
theorem stop_eq_run (hrunning : c.dispatcher = .running) (hstopping : c.stopping = true)
    (htakes : c.stream.takes = true) :
    c.step .stop = c.run (List.replicate c.outbound.length .sendNext ++ [.stop]) := by
  rw [run_append, run_sendNext hrunning htakes]
  show c.stop = c.moved.stop
  have hmoved : c.moved.dispatcher = .running ∧ c.moved.stopping = true := ⟨hrunning, hstopping⟩
  rw [stop, if_pos ⟨hrunning, hstopping⟩, stop, if_pos hmoved, flush_of_takes htakes]
  rfl

/-- Flushing leaves a stream open, and its writer as it is. Only the texts that wait in it become
more. -/
theorem flush_owner (s : Stream) (messages : List Message) :
    (flush s messages).isOpen = s.isOpen ∧ (flush s messages).writer = s.writer := by
  cases htakes : s.takes with
  | true =>
    rw [flush_of_takes htakes]
    exact ⟨rfl, rfl⟩
  | false =>
    rw [flush_of_not_takes htakes]
    exact ⟨rfl, rfl⟩

/-! ### The end of the stream -/

/-- A write ends the stream only if it finds nothing to write and the stream closed. So whatever was
waiting for the writer has been written by then. -/
theorem finished_write {s : Stream} {refusal : Option String} (hbefore : s.writer ≠ .finished)
    (hafter : (s.write refusal).1.writer = .finished) : s.outgoing = [] ∧ s.isOpen = false := by
  unfold Stream.write at hafter
  -- With a text to write, the writer fails or goes on. Either way it has not finished.
  split at hafter
  · rename_i text rest hwriter houtgoing
    split at hafter
    · exact nomatch hafter
    · exact absurd hafter hbefore
  · rename_i hwriter houtgoing
    dsimp only at hafter
    split at hafter
    · exact absurd hafter hbefore
    · rename_i hclosed
      exact ⟨houtgoing, Bool.eq_false_iff.mpr hclosed⟩
  · exact absurd hafter hbefore

/-- The writer ends the stream only when nothing waits for it any more. All courses but a write
leave the writer as it is. -/
theorem Course.finished (h : Course c e after) (hbefore : c.stream.writer ≠ .finished)
    (hafter : after.stream.writer = .finished) :
    c.stream.outgoing = [] ∧ c.stream.isOpen = false := by
  cases h with
  | goesOn dispatcher accepted outbound received stream =>
    exact absurd (stream.writer.symm.trans hafter) hbefore
  | writes refusal event state =>
    rw [state] at hafter
    -- The one course that can end the writer: it had nothing left to write, and the stream was
    -- closed.
    exact finished_write hbefore hafter
  | stops event running stopping state =>
    rw [state] at hafter
    -- A flush hands messages to the writer, which is then no further than before.
    have hflush := (flush_owner c.stream c.outbound).2
    exact absurd (hflush.symm.trans hafter) hbefore
  | moves m rest event running outbound takes state =>
    rw [state] at hafter
    exact absurd hafter hbefore
  | fails notices event running refuses state =>
    rw [state] at hafter
    exact absurd hafter hbefore
  | loses framing incoming connected notices event running nothing state =>
    rw [state] at hafter
    exact absurd hafter hbefore
  | cuts notices event state =>
    rw [state] at hafter
    exact absurd hafter hbefore
  | closes event ended stopping state =>
    rw [state] at hafter
    exact absurd hafter hbefore

/-- Draining a closed stream writes its texts one by one and then ends it. There is one unit of fuel
for each text and one for the end. -/
theorem drainFuel_of_closed (texts : List (List Char)) {s : Stream} (hclosed : s.isOpen = false)
    (hwriter : s.writer = .running) (houtgoing : s.outgoing = texts) :
    Stream.drainFuel none (texts.length + 1) s =
      { s with outgoing := [], written := s.written ++ texts, writer := .finished } := by
  induction texts generalizing s with
  | nil =>
    -- Nothing is left to write, and the stream is closed: the writer ends it.
    have hcan : s.canWrite = true := by
      rw [Stream.canWrite, hwriter, hclosed, Bool.not_false, Bool.or_true]
      rfl
    show (if s.canWrite then (s.write none).1 else s) = _
    rw [if_pos hcan, Stream.write, hwriter, houtgoing, List.append_nil]
    dsimp only
    rw [hclosed, if_neg Bool.false_ne_true]
  | cons text rest ih =>
    -- The first text is written, and the rest is drained from there.
    have hcan : s.canWrite = true := by
      rw [Stream.canWrite, hwriter, houtgoing]
      rfl
    have hnext : (s.write none).1 =
        { s with outgoing := rest, written := s.written ++ [text] } := by
      rw [Stream.write, hwriter, houtgoing]
    have hrest := ih (s := (s.write none).1) (hnext ▸ hclosed) (hnext ▸ hwriter) (hnext ▸ rfl)
    show (if s.canWrite then Stream.drainFuel none (rest.length + 1) (s.write none).1 else s) = _
    rw [if_pos hcan, hrest, hnext, List.append_assoc]
    rfl

/-- A stream that has been closed is written out and ended, if nothing refuses. If its writer had
finished before, nothing waited. -/
theorem drain_of_closed {s : Stream} (hclosed : s.isOpen = false) (hwriter : s.writer ≠ .failed)
    (htidy : s.Tidy) :
    s.drain none =
      { s with outgoing := [], written := s.written ++ s.outgoing, writer := .finished } := by
  cases hcase : s.writer with
  | failed => exact absurd hcase hwriter
  -- It writes one text after another, and then ends since the stream is closed.
  | running => exact drainFuel_of_closed s.outgoing hclosed hcase rfl
  | finished =>
    have houtgoing := (htidy.finished hcase).1
    have hidle : s.canWrite = false := by
      rw [Stream.canWrite, hcase]
      rfl
    rw [Stream.drain, houtgoing, List.append_nil]
    show (if s.canWrite then _ else s) = _
    rw [hidle, ← houtgoing, ← hcase]
    rfl

/-! ### Runs -/

/-- After the dispatcher has ended, nothing more is accepted: requests and notifications fail at
once, and nothing arrives that would have to be answered. -/
theorem accepted_run (hended : c.dispatcher = .ended) (events : List (Event η)) :
    (c.run events).accepted = c.accepted := by
  induction events generalizing c with
  | nil => rfl
  | cons e events ih =>
    have hnext := ih ((course_step c e).ended hended)
    rw [(record_step c e).1, accepts_of_ended hended, List.append_nil] at hnext
    exact hnext

/-- A dispatcher ends by `stop` only if it was asked to. -/
theorem stopping_of_ends (h : c.ends .stop = true) : c.stopping = true := by
  obtain ⟨hrunning, hended⟩ := ends_iff.mp h
  by_contra hnot
  have hsame : c.step .stop = c := if_neg fun hstop => hnot hstop.2
  rw [hsame] at hended
  exact nomatch hrunning.symm.trans hended

/-- What holds after the dispatcher has been asked to stop, and has stopped. -/
structure Stopped (before after : List (Event η)) : Prop where
  /-- Nothing waits, now or later, and nothing more is accepted. -/
  outbound : (ran (before ++ [.stop])).outbound = [] ∧
    (ran (before ++ .stop :: after)).outbound = []
  accepted : (ran (before ++ .stop :: after)).accepted = (ran before).accepted
  /-- All that was accepted has been given to the stream, which has not been closed yet. -/
  isOpen : (ran (before ++ [.stop])).stream.isOpen = true
  given : (ran (before ++ [.stop])).stream.writer ≠ .failed →
    (ran (before ++ [.stop])).stream.written ++ (ran (before ++ [.stop])).stream.outgoing =
      (ran before).accepted.map Message.frame
  /-- It has been given message by message. -/
  moves : (ran before).stream.writer ≠ .failed →
    ran (before ++ [.stop]) =
      (ran before).run (List.replicate (ran before).outbound.length .sendNext ++ [.stop])

/-- A dispatcher that stops when it is asked to leaves nothing behind. The queue is moved to the
stream, which is still open then and is closed by the owner afterwards. -/
theorem stopped_of_ends {before : List (Event η)} (hends : (ran before).ends .stop = true)
    (after : List (Event η)) : Stopped before after := by
  obtain ⟨hrunning, hended⟩ := ends_iff.mp hends
  have hstopping := stopping_of_ends hends
  have horderly := orderly_run before
  have hstep : ran (before ++ [.stop]) = (ran before).step .stop := run_concat _ _ _
  have hstop : (ran before).step .stop =
      { ran before with stream := flush (ran before).stream (ran before).outbound }.endDispatch :=
    if_pos ⟨hrunning, hstopping⟩
  have haccepted : (ran (before ++ [.stop])).accepted = (ran before).accepted := by
    rw [hstep, hstop]
    rfl
  have houtbound : (ran (before ++ [.stop])).outbound = [] := by
    rw [hstep, hstop]
    rfl
  have hafter : ran (before ++ .stop :: after) = (ran (before ++ [.stop])).run after := by
    rw [hstep]
    exact run_append _ _ _
  refine
    { outbound := ⟨houtbound, ?_⟩, accepted := ?_, isOpen := ?_
      given := fun hwriter => ?_, moves := fun hwriter => ?_ }
  · -- An ended dispatcher has an empty queue, now and later.
    have hlater : (ran (before ++ .stop :: after)).dispatcher = .ended := by
      rw [hafter]
      exact ended_run after (hstep ▸ hended)
    exact (orderly_run _).outbound hlater
  · rw [hafter, accepted_run (hstep ▸ hended), haccepted]
  · -- Moving messages to the stream does not close it, and it was open as long as the dispatcher
    -- ran.
    rw [hstep, hstop]
    exact (flush_owner _ _).1.trans (horderly.isOpen hrunning)
  · have hframes := frames_run (before ++ [.stop]) hwriter
    -- If the writer is sound after the stop, it was so before.
    have hbefore : (ran before).stream.writer ≠ .failed := by
      intro hfailed
      refine hwriter ?_
      rw [hstep]
      exact (course_step _ _).failed hfailed
    -- What waited has been moved, so nothing was dropped.
    have hdropped : dropped (before ++ [.stop]) = [] := by
      rw [dropped_of_ends hends, loss_of_flush rfl (horderly.takes hrunning hbefore)]
    rw [hdropped, houtbound, haccepted, List.append_nil, List.map_nil, List.append_nil] at hframes
    exact hframes
  · rw [hstep]
    exact stop_eq_run hrunning hstopping (horderly.takes hrunning hwriter)

/-- What holds of the messages of a client after a run. -/
structure Delivered (events : List (Event η)) : Prop where
  /-- What is accepted is what was put into the queue, in order. -/
  accepts : ∀ before e after, events = before ++ e :: after →
    (ran (before ++ [e])).accepted = (ran before).accepted ++ (ran before).accepts e
  /-- As long as no write fails and the other end is not lost, what is written, what the
  writer holds and what waits in the queue make up what was accepted. -/
  order : (ran events).stream.writer ≠ .failed → endedBy events ≠ some .lost →
    endedBy events ≠ some .cutOff →
    (ran events).stream.written ++ (ran events).stream.outgoing ++
        (ran events).outbound.map Message.frame =
      (ran events).accepted.map Message.frame
  /-- Once the client has been closed, the writer writes all of it, if nothing refuses. -/
  drained : (ran events).stream.writer ≠ .failed → endedBy events ≠ some .lost →
    endedBy events ≠ some .cutOff → (ran events).stream.isOpen = false →
    ((ran events).stream.drain none).written = (ran events).accepted.map Message.frame
  /-- If the dispatcher was cut off, that is so with what waited in the queue by then. -/
  cutOff : ∀ before e after, events = before ++ e :: after → (ran before).ends e = true →
    e.cause = .cutOff → (ran events).stream.writer ≠ .failed →
    (ran events).stream.written ++ (ran events).stream.outgoing ++
        (ran before).outbound.map Message.frame =
      (ran events).accepted.map Message.frame
  stopped : ∀ before after, events = before ++ .stop :: after →
    (ran before).ends .stop = true → Stopped before after
  /-- The writer ends the stream when it has been closed and nothing waits. -/
  finished : ∀ before e after, events = before ++ e :: after →
    (ran before).stream.writer ≠ .finished →
    (ran (before ++ [e])).stream.writer = .finished →
    (ran before).stream.outgoing = [] ∧ (ran before).stream.isOpen = false
  /-- Whatever happens, nothing is written out of order or twice. -/
  front : (ran events).stream.written ++ (ran events).stream.outgoing <+:
    (ran events).accepted.map Message.frame

/-- Messages go out in order and none is lost, for every run. The clauses come from the account of
`shipped_run`, in which nothing was dropped as long as no write fails, the other end is not lost and
the dispatcher is not cut off. -/
theorem delivered (events : List (Event η)) : Delivered events := by
  have horder : (ran events).stream.writer ≠ .failed → endedBy events ≠ some .lost →
      endedBy events ≠ some .cutOff →
      (ran events).stream.written ++ (ran events).stream.outgoing ++
          (ran events).outbound.map Message.frame =
        (ran events).accepted.map Message.frame := by
    intro hwriter hlost hcut
    have hframes := frames_run events hwriter
    rw [dropped_eq_nil events hwriter hlost hcut, List.nil_append] at hframes
    exact hframes
  refine
    { accepts := fun before e after _ => ?_, order := horder
      drained := fun hwriter hlost hcut hclosed => ?_
      cutOff := ?_, stopped := ?_, finished := ?_, front := ?_ }
  · rw [ran, run_concat]
    exact (record_step _ e).1
  · -- A stream that is closed has no queue before it any more, so what it carries is all there is.
    have hwhole := horder hwriter hlost hcut
    rw [(orderly_run events).outbound_of_closed hclosed, List.map_nil, List.append_nil] at hwhole
    rw [drain_of_closed hclosed hwriter (orderly_run events).tidy]
    exact hwhole
  · -- If the dispatcher was cut off, the loss is the queue at that moment.
    rintro before e after rfl hends hcause hwriter
    have hframes := frames_run _ hwriter
    have hended : (ran (before ++ e :: after)).dispatcher = .ended := by
      rw [ran, run_append]
      exact ended_run after (ends_iff.mp hends).2
    have hnot : e.cause ≠ .asked := by
      rw [hcause]
      decide
    have hloss : (ran before).loss e = (ran before).outbound := loss_of_ends hends (.inl hnot)
    rw [dropped_of_ends hends, hloss, (orderly_run _).outbound hended, List.append_nil] at hframes
    exact hframes
  · rintro before after rfl hends
    exact stopped_of_ends hends after
  · -- The writer finishes at a write that finds a closed stream and nothing waiting.
    rintro before e after rfl hbefore hafter
    rw [ran, run_concat] at hafter
    exact (course_step _ e).finished hbefore hafter
  · -- Whatever else happens, failures and cut-offs included, what is written is a beginning of what
    -- was accepted.
    obtain ⟨given, hgiven, hcarried⟩ := (shipped_run events).whole
    rw [hgiven, List.map_append, List.map_append, List.append_assoc]
    exact hcarried.front.trans (List.prefix_append _ _)

/-- A client is closed with a request on its way: the dispatcher stops, the stream is closed,
and the writer ends it after the request. -/
theorem delivered_of_closing :
    Delivered [.request "a" none .any, .beginClose, .stop, .endClose, .write none,
        (.write none : Event Unit)] ∧
      Stopped [.request "a" none .any, .beginClose]
        [.endClose, .write none, (.write none : Event Unit)] ∧
      (ran [.request "a" none .any, .beginClose, .stop, .endClose, .write none,
        (.write none : Event Unit)]).stream.writer = .finished := by
  have hdelivered := delivered [.request "a" none .any, .beginClose, .stop, .endClose, .write none,
    (.write none : Event Unit)]
  exact ⟨hdelivered, hdelivered.stopped _ _ rfl (by decide), by decide⟩

end LanguageClient.Rpc
