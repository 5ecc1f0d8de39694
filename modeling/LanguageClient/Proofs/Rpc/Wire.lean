import LanguageClient.Proofs.Rpc.Effect
import Mathlib.Data.List.Induction

/-!
# `LanguageClient.Proofs.Rpc.Wire`: what a client writes

A message that is queued waits in the client, then in its stream, and is written at
last; each of the two can stop taking messages and lose those that wait.

* `Traffic`: what a step does to the messages. `traffic_step` is the one place that
  looks at every event.
* `wired_run`: what has been written is the frames of the first messages that were
  queued, in order.
* `requestIds_run`: the ids of the requests among them are those of the calls, in order,
  so no two requests have the same (`nodup_callIds`).
-/

set_option autoImplicit false

namespace LanguageClient

/-! ### The stream -/

namespace Stream

/-- The texts that a stream was given: those it has written or holds are the first of
them, and as long as no write has failed they are all. -/
structure Carried (s : Stream) (texts : List (List Char)) : Prop where
  front : s.written ++ s.outgoing <+: texts
  whole : s.writer ≠ .failed → s.written ++ s.outgoing = texts

/-- Only what was written, what waits and the writer count. What comes in, and who may still write,
are of no concern. -/
theorem Carried.congr {s s' : Stream} {texts : List (List Char)} (h : s.Carried texts)
    (hwritten : s'.written = s.written) (houtgoing : s'.outgoing = s.outgoing)
    (hwriter : s'.writer = s.writer) : s'.Carried texts := by
  refine ⟨?_, fun hwrites => ?_⟩
  · rw [hwritten, houtgoing]
    exact h.front
  · rw [hwritten, houtgoing]
    exact h.whole (hwriter ▸ hwrites)

/-- A stream that takes a text puts it behind the others. It takes one only while its writer runs,
so that nothing of the others has been lost. -/
theorem carried_send {s s' : Stream} {texts : List (List Char)} {text : List Char}
    (h : s.Carried texts) (hsend : s.send text = .ok s') : s'.Carried (texts ++ [text]) := by
  unfold send at hsend
  split at hsend
  · exact nomatch hsend
  · split at hsend
    · exact nomatch hsend
    · rename_i hwriter
      cases hsend
      -- A writer that takes a text runs, so it has taken all before.
      have hwrites : s.writer ≠ .failed := by
        rw [Decidable.not_not.mp hwriter]
        exact nofun
      have hwhole : s.written ++ (s.outgoing ++ [text]) = texts ++ [text] := by
        rw [← List.append_assoc, h.whole hwrites]
      exact ⟨⟨[], by rw [List.append_nil, hwhole]⟩, fun _ => hwhole⟩

/-- A write takes the first text that waits, or it fails, and then those that wait are lost. What
has been written stays the beginning of what was given to the stream. -/
theorem carried_write {s : Stream} {texts : List (List Char)} (h : s.Carried texts)
    (refusal : Option String) : (s.write refusal).1.Carried texts := by
  unfold write
  split
  · rename_i text rest hwriter houtgoing
    have hwhole := h.whole (by rw [hwriter]; exact nofun)
    rw [houtgoing] at hwhole
    split
    · -- The write fails: what was queued is lost, what was written stays.
      refine ⟨?_, fun hwrites => absurd rfl hwrites⟩
      dsimp only
      rw [List.append_nil, ← hwhole]
      exact List.prefix_append _ _
    · have hmoved : (s.written ++ [text]) ++ rest = texts := by
        rw [List.append_assoc, List.singleton_append, hwhole]
      exact ⟨⟨[], by rw [List.append_nil, hmoved]⟩, fun _ => hmoved⟩
  · rename_i hwriter houtgoing
    dsimp only
    split
    · exact h
    · exact ⟨h.front, fun _ => h.whole (by rw [hwriter]; exact nofun)⟩
  · exact h

/-- What comes in does not change what goes out. -/
theorem carried_deliver {s : Stream} {texts : List (List Char)} (h : s.Carried texts)
    (portion : List UInt8) : (s.deliver portion).1.Carried texts := by
  unfold deliver
  split
  · exact h.congr rfl rfl rfl
  · exact h

/-- The end of what comes in does not change what goes out. What was given to the stream can still
be written. -/
theorem carried_finish {s : Stream} {texts : List (List Char)} (h : s.Carried texts) :
    s.finish.1.Carried texts := by
  unfold finish
  split
  · exact h.congr rfl rfl rfl
  · exact h

/-- A break of what comes in does not change what goes out. It is the writer that fails or goes on,
in a step of its own. -/
theorem carried_breakOff {s : Stream} {texts : List (List Char)} (h : s.Carried texts)
    (cause : String) : (s.breakOff cause).1.Carried texts := by
  unfold breakOff
  split
  · exact h.congr rfl rfl rfl
  · exact h

end Stream

namespace Rpc

variable {η : Type}

open Client

/-! ### Steps -/

/-- The written form of a message. -/
def Message.frame (m : Message) : List Char := Framing.frame m.payload

/-- The id of a request. -/
def Message.requestId? : Message → Option Json
  | .request r => some r.id
  | _ => none

/-- What one step does to the messages of a client. -/
inductive Traffic (c after : Client η) : Prop where
  | quiet (accepted : after.accepted = c.accepted) (outbound : after.outbound = c.outbound)
      (dispatcher : after.dispatcher = c.dispatcher)
      (stream : ∀ texts, c.stream.Carried texts → after.stream.Carried texts)
  /-- A message is queued; if it is a request, a call is counted. -/
  | queue (m : Message) (running : c.dispatcher = .running)
      (accepted : after.accepted = c.accepted ++ [m])
      (outbound : after.outbound = c.outbound ++ [m])
      (dispatcher : after.dispatcher = c.dispatcher)
      (stream : ∀ texts, c.stream.Carried texts → after.stream.Carried texts)
      (id : m.requestId? = none ∨ m.requestId? = some (.nat (wireId (c.calls.length + 1))) ∧
        after.calls.length = c.calls.length + 1)
  /-- A message is moved to the stream. -/
  | move (m : Message) (running : c.dispatcher = .running)
      (accepted : after.accepted = c.accepted)
      (outbound : c.outbound = m :: after.outbound)
      (dispatcher : after.dispatcher = c.dispatcher)
      (stream : ∀ texts, c.stream.Carried texts → after.stream.Carried (texts ++ [m.frame]))
  /-- Some messages are moved to the stream, and the others are lost. -/
  | finish (moved : List Message) (front : moved <+: c.outbound)
      (running : c.dispatcher = .running ∨ moved = [])
      (accepted : after.accepted = c.accepted) (dispatcher : after.dispatcher = .ended)
      (stream : ∀ texts, c.stream.Carried texts →
        after.stream.Carried (texts ++ moved.map Message.frame))

/-- A client that ends without moving anything loses what is queued. -/
theorem Traffic.lose {c after : Client η} (accepted : after.accepted = c.accepted)
    (dispatcher : after.dispatcher = .ended)
    (stream : ∀ texts, c.stream.Carried texts → after.stream.Carried texts) : Traffic c after := by
  refine .finish [] List.nil_prefix (.inr rfl) accepted dispatcher fun texts h => ?_
  rw [List.map_nil, List.append_nil]
  exact stream texts h

/-- What a stream takes of the messages that are flushed to it: the first of them, up to the one
that it refuses. The induction follows the flush, which stops there. -/
theorem exists_flush (messages : List Message) (s : Stream) :
    ∃ moved, moved <+: messages ∧ ∀ texts, s.Carried texts →
      (flush s messages).Carried (texts ++ moved.map Message.frame) := by
  induction messages generalizing s with
  | nil =>
    refine ⟨[], List.prefix_rfl, fun texts h => ?_⟩
    rw [List.map_nil, List.append_nil]
    exact h
  | cons m rest ih =>
    cases hsend : s.send (Framing.frame m.payload) with
    | error e =>
      -- The first message is refused, and nothing is moved.
      refine ⟨[], List.nil_prefix, fun texts h => ?_⟩
      rw [List.map_nil, List.append_nil, flush, hsend]
      exact h
    | ok after =>
      obtain ⟨moved, hfront, hcarried⟩ := ih after
      refine ⟨m :: moved, List.cons_prefix_cons.mpr ⟨rfl, hfront⟩, fun texts h => ?_⟩
      have hmoved := hcarried _ (Stream.carried_send h hsend)
      rw [List.append_assoc] at hmoved
      rw [flush, hsend]
      exact hmoved

/-- A payload is taken off the stream and handed on. It queues one message at most, the answer to a
request. -/
theorem traffic_accept {c : Client η} (hrunning : c.dispatcher = .running) (framing : Framing)
    (incoming : List (List Char)) (payload : List Char) :
    Traffic c (({ c with framing, stream := { c.stream with incoming } } :
      Client η).accept payload) := by
  -- Taking a payload off the stream concerns what comes in. What goes out is carried as before.
  have hstream : ∀ texts, c.stream.Carried texts →
      ({ c.stream with incoming } : Stream).Carried texts := fun _ h => h.congr rfl rfl rfl
  unfold accept
  cases Message.parse payload with
  | error e => exact .quiet rfl rfl rfl hstream
  | ok m =>
    cases m with
    | request r =>
      dsimp only
      -- Whether a handler is known decides what the answer says, and there is one in both cases.
      unfold acceptRequest
      split
      · exact .queue _ hrunning rfl rfl rfl hstream (.inl rfl)
      · exact .queue _ hrunning rfl rfl rfl hstream (.inl rfl)
    | notification n =>
      dsimp only
      unfold acceptNotification
      split
      · exact .quiet rfl rfl rfl hstream
      · exact .quiet rfl rfl rfl hstream
    | response r =>
      dsimp only
      unfold acceptResponse
      split
      · exact .quiet rfl rfl rfl hstream
      · exact .quiet rfl rfl rfl hstream

/-- Whatever the dispatcher finds, it queues at most an answer, or ends. It moves nothing to the
stream here, which `sendNext` does. -/
theorem traffic_receiveNext (c : Client η) : Traffic c c.receiveNext := by
  rcases c.receiveNext_cases with ⟨payload, hpayload⟩ |
    ⟨framing, incoming, connected, notices, heq | heq⟩
  · obtain ⟨framing, incoming, heq⟩ := receiveNext_of_arrives hpayload
    rw [heq]
    exact traffic_accept hpayload.1 framing incoming payload
  · rw [heq]
    exact .quiet rfl rfl rfl fun _ h => h.congr rfl rfl rfl
  · rw [heq]
    exact .lose rfl rfl fun _ h => h.congr rfl rfl rfl

/-- A request is queued with the next number as its id, if it can be sent. If the dispatcher has
ended, nothing is queued. -/
theorem traffic_request (c : Client η) (method : String) (params : Option Json) (shape : Shape) :
    Traffic c (c.request method params shape).2 := by
  have hlength := length_request c method params shape
  unfold request at hlength ⊢
  dsimp only at hlength ⊢
  split
  · exact .quiet rfl rfl rfl fun _ h => h
  · rename_i hnot
    rw [if_neg hnot] at hlength
    exact .queue _ (running_of_ne_ended hnot) rfl rfl rfl (fun _ h => h) (.inr ⟨rfl, hlength⟩)

/-- A caller who looks into its mailbox moves no message. -/
theorem traffic_look (c : Client η) (number : Nat) (f : Call → Call) :
    Traffic c (c.look number f) := by
  obtain ⟨calls, pending, -, heq⟩ := c.look_eq number f
  rw [heq]
  exact .quiet rfl rfl rfl fun _ h => h

/-- The first message that is queued is moved to the stream, or all are lost. They are lost if the
stream refuses it, which ends the dispatcher. -/
theorem traffic_sendNext (c : Client η) : Traffic c c.sendNext := by
  unfold sendNext
  split
  · rename_i m rest hrunning houtbound
    cases hsend : c.stream.send (Framing.frame m.payload) with
    | ok stream =>
      exact .move m hrunning rfl houtbound rfl fun _ h => Stream.carried_send h hsend
    | error e => exact .lose rfl rfl fun _ h => h
  · exact .quiet rfl rfl rfl fun _ h => h

/-- A dispatcher that stops moves all that the stream takes. If its writer has failed, that is
nothing, and what was queued is lost. -/
theorem traffic_stop (c : Client η) : Traffic c c.stop := by
  unfold stop
  split
  · rename_i hstop
    obtain ⟨moved, hfront, hcarried⟩ := exists_flush c.outbound c.stream
    exact .finish moved hfront (.inl hstop.1) rfl rfl hcarried
  · exact .quiet rfl rfl rfl fun _ h => h

/-- Every event has one of the effects on the messages. The two invariants below are proved from
these four effects, and do not look at events again. -/
theorem traffic_step (c : Client η) (e : Event η) : Traffic c (c.step e) := by
  cases e with
  | request method params shape => exact traffic_request c method params shape
  | notify method params =>
    by_cases hended : c.dispatcher = .ended
    · simp only [step, notify, if_pos hended]
      exact .quiet rfl rfl rfl fun _ h => h
    · simp only [step, notify, if_neg hended]
      exact .queue _ (running_of_ne_ended hended) rfl rfl rfl (fun _ h => h) (.inl rfl)
  | resume number => exact traffic_look c number Call.resume
  | expire number => exact traffic_look c number Call.expire
  | abandon number => exact .quiet rfl rfl rfl fun _ h => h
  | cancelAll => exact .quiet rfl rfl rfl fun _ h => h
  | onNotification => exact .quiet rfl rfl rfl fun _ h => h
  | onRequest => exact .quiet rfl rfl rfl fun _ h => h
  | sendNext => exact traffic_sendNext c
  | receiveNext => exact traffic_receiveNext c
  | stop => exact traffic_stop c
  | beginClose => exact .quiet rfl rfl rfl fun _ h => h
  | endClose =>
    -- The stream is closed, which takes no text away from it.
    simp only [step]
    split
    · exact .quiet rfl rfl rfl fun _ h => h.congr rfl rfl rfl
    · exact .quiet rfl rfl rfl fun _ h => h
  | forceClose =>
    -- A dispatcher that still runs is ended by force, and what is queued is lost.
    simp only [step, forceClose]
    split
    · split
      · exact .lose rfl rfl fun _ h => h.congr rfl rfl rfl
      · exact .quiet rfl rfl rfl fun _ h => h.congr rfl rfl rfl
    · exact .quiet rfl rfl rfl fun _ h => h
  -- With the owner gone the queue goes too.
  | drop => exact .lose rfl rfl fun _ h => h.congr rfl rfl rfl
  | write refusal => exact .quiet rfl rfl rfl fun _ h => Stream.carried_write h refusal
  | deliver portion => exact .quiet rfl rfl rfl fun _ h => Stream.carried_deliver h portion
  | finish => exact .quiet rfl rfl rfl fun _ h => Stream.carried_finish h
  | breakOff cause => exact .quiet rfl rfl rfl fun _ h => Stream.carried_breakOff h cause

/-! ### Runs -/

namespace Client

/-- What has been moved to the stream is the first of what was queued; as long as the
dispatcher runs the rest waits. -/
def Wired (c : Client η) : Prop :=
  ∃ moved, moved <+: c.accepted ∧ c.stream.Carried (moved.map Message.frame) ∧
    (c.dispatcher = .running → c.accepted = moved ++ c.outbound)

/-- What was moved to the stream stays the first of what was queued, with each of the effects. While
the dispatcher runs, the rest of what was queued is what is still waiting. -/
theorem wired_traffic {c after : Client η} (h : c.Wired) (ht : Traffic c after) :
    after.Wired := by
  obtain ⟨moved, hfront, hcarried, hrunning⟩ := h
  cases ht with
  | quiet accepted outbound dispatcher stream =>
    -- Nothing is queued or moved.
    refine ⟨moved, accepted ▸ hfront, stream _ hcarried, fun hr => ?_⟩
    rw [accepted, outbound]
    exact hrunning (dispatcher ▸ hr)
  | queue m running accepted outbound dispatcher stream id =>
    -- The new message waits behind those that wait.
    refine ⟨moved, ?_, stream _ hcarried, fun _ => ?_⟩
    · rw [accepted]
      exact hfront.trans (List.prefix_append _ _)
    · rw [accepted, outbound, hrunning running, List.append_assoc]
  | move m running accepted outbound dispatcher stream =>
    -- The message that is moved is the first of those that wait.
    have hsplit : c.accepted = (moved ++ [m]) ++ after.outbound := by
      rw [hrunning running, outbound, List.append_assoc, List.singleton_append]
    refine ⟨moved ++ [m], ?_, ?_, fun _ => ?_⟩
    · rw [accepted, hsplit]
      exact List.prefix_append _ _
    · rw [List.map_append, List.map_singleton]
      exact stream _ hcarried
    · rw [accepted, hsplit]
  | finish more front running accepted dispatcher stream =>
    refine ⟨moved ++ more, ?_, ?_, fun hr => ?_⟩
    · -- A dispatcher that has ended already moves nothing more.
      rw [accepted]
      rcases running with running | rfl
      · rw [hrunning running]
        exact (List.prefix_append_right_inj moved).mpr front
      · rw [List.append_nil]
        exact hfront
    · rw [List.map_append]
      exact stream _ hcarried
    · rw [dispatcher] at hr
      exact nomatch hr

/-- What has been written is the frames of the first messages that were queued, in order and without
a gap. So the other end reads a conversation from its beginning, however far it has come. -/
theorem wired_run (events : List (Event η)) :
    ∃ sent, sent <+: (({} : Client η).run events).accepted ∧
      (({} : Client η).run events).stream.written = sent.map Message.frame := by
  have hwired : (({} : Client η).run events).Wired := by
    induction events using List.reverseRecOn with
    | nil => exact ⟨[], List.prefix_rfl, ⟨List.prefix_rfl, fun _ => rfl⟩, fun _ => rfl⟩
    | append_singleton events e ih =>
      rw [run_concat]
      exact wired_traffic ih (traffic_step _ e)
  obtain ⟨moved, hfront, hcarried, -⟩ := hwired
  -- What is written is the front of what was moved, and that is the front of what was queued.
  have hwritten := (List.prefix_append _ _).trans hcarried.front
  obtain ⟨sent, hsent, heq⟩ := List.prefix_map_iff.mp hwritten
  exact ⟨sent, hsent.trans hfront, heq⟩

/-! ### Ids -/

/-- The ids of the requests that a client has queued, in order. -/
def requestIds (c : Client η) : List Json := c.accepted.filterMap Message.requestId?

/-- The numbers of the calls, as ids. -/
def callIds (c : Client η) : List Json := (List.range' 1 c.calls.length).map Json.nat

/-- With more calls there are more ids, behind the others. -/
theorem callIds_sublist {c after : Client η} (h : c.calls.length ≤ after.calls.length) :
    c.callIds.Sublist after.callIds :=
  (List.range'_sublist_right.mpr h).map Json.nat

/-- The ids of the requests stay among those of the calls, in their order, with each of the
effects. -/
theorem requestIds_traffic {c after : Client η} (h : c.requestIds.Sublist c.callIds)
    (ht : Traffic c after) (hlength : c.calls.length ≤ after.calls.length)
    (hfew : after.calls.length < Nat.pow 2 64) : after.requestIds.Sublist after.callIds := by
  have hsame := h.trans (callIds_sublist hlength)
  cases ht with
  | quiet accepted outbound dispatcher stream =>
    rw [requestIds, accepted]
    exact hsame
  | queue m running accepted outbound dispatcher stream id =>
    rw [requestIds, accepted, List.filterMap_append]
    -- Only a request adds an id, and then its call has the next number.
    rcases id with hnone | ⟨hsome, hnext⟩
    · rw [List.filterMap_cons_none hnone, List.filterMap_nil, List.append_nil]
      exact hsame
    · have hwire : wireId (c.calls.length + 1) = c.calls.length + 1 :=
        wireId_eq (hnext ▸ hfew)
      rw [List.filterMap_cons_some hsome, List.filterMap_nil, hwire, callIds, hnext,
        List.range'_concat, List.map_append, List.map_singleton, Nat.one_mul, Nat.add_comm 1]
      exact h.append_right _
  | move m running accepted outbound dispatcher stream =>
    rw [requestIds, accepted]
    exact hsame
  | finish more front running accepted dispatcher stream =>
    rw [requestIds, accepted]
    exact hsame

/-- The requests carry the numbers of their calls, in order. A call that cannot be sent has a number
and no request, which is why some may be missing. -/
theorem requestIds_run (events : List (Event η))
    (hfew : (({} : Client η).run events).calls.length < Nat.pow 2 64) :
    (({} : Client η).run events).requestIds.Sublist (({} : Client η).run events).callIds := by
  induction events using List.reverseRecOn with
  | nil => exact List.nil_sublist _
  | append_singleton events e ih =>
    rw [run_concat] at hfew ⊢
    have hlength := length_le_step (({} : Client η).run events) e
    exact requestIds_traffic (ih (Nat.lt_of_le_of_lt hlength hfew)) (traffic_step _ e) hlength hfew

/-- No two calls have the same id, and so no two requests. -/
theorem nodup_callIds (c : Client η) : c.callIds.Nodup := by
  refine List.pairwise_map.mpr ?_
  refine (List.nodup_range' 1).imp fun hne heq => hne ?_
  exact Int.ofNat.inj (Number.int.inj (Json.number.inj heq))

end Client

end Rpc

end LanguageClient
