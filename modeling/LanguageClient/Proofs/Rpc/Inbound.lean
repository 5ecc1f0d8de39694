import LanguageClient.Proofs.Rpc.Intake
import LanguageClient.Proofs.Rpc.Replies

/-!
# `LanguageClient.Proofs.Rpc.Inbound`: what becomes of the messages of the other end

The dispatcher sends before it receives, and gives a look for the next payload up when there is
something to send. The other end notices nothing of that: what it sends is taken payload by
payload, each once and in order, and handed to whoever is set for it at that moment.

* `handled_run`: the handlers that were called are those that the payloads call (`called`), in
  order, each payload with the handlers that were set when it was taken.
* `accept_of_stray`: a payload that is for nobody changes nothing.
* `heeded`: what holds of every run, whatever bytes come in, and what holds in addition where
  the other end sends frames.
-/

set_option autoImplicit false

namespace LanguageClient

open Text

/-! ### Well-formed streams -/

/-- The bytes of a text, as far as they have come in, are the beginning of that text. An unfinished
character at the end is held back and not replaced. -/
theorem Text.Decoder.text_prefix_of_encode {bytes : List UInt8} {s : List Char}
    (h : bytes <+: encode s) : Decoder.text bytes <+: s := by
  obtain ⟨more, hmore⟩ := h
  obtain ⟨t, u, stop, hscan, hvalid, hs, -⟩ := Utf8.scan_of_append_eq_encode hmore
  rw [(Decoder.text_of_valid hscan hvalid).1, hs]
  exact List.prefix_append t u

namespace Framing

/-- Frames that come in, as far as they have come, show no fault, and their messages are the bodies
of the first frames. The bytes may stop anywhere, also within a header or a character. -/
theorem read_of_frames {bytes : List UInt8} {frames : List TextFrame}
    (h : bytes <+: encode (frames.flatMap TextFrame.text)) :
    faultOf (Decoder.text bytes) = none ∧
      bodies (Decoder.text bytes) <+: frames.map TextFrame.body := by
  obtain ⟨rest, hrest⟩ := Decoder.text_prefix_of_encode h
  obtain ⟨hbodies, hfault, -⟩ := read_frames_append frames []
  rw [List.append_nil, ← hrest] at hbodies hfault
  refine ⟨faultOf_of_append hfault, ?_⟩
  have hprefix := bodies_prefix (Decoder.text bytes) rest
  rw [hbodies] at hprefix
  rwa [show bodies [] = [] from rfl, List.append_nil] at hprefix

/-- Frames that have come in whole are read first. -/
theorem bodies_of_frames {bytes : List UInt8} {frames : List TextFrame}
    (h : encode (frames.flatMap TextFrame.text) <+: bytes) :
    ∃ more, bodies (Decoder.text bytes) = frames.map TextFrame.body ++ more := by
  obtain ⟨rest, rfl⟩ := h
  rw [(Decoder.text_encode_append _ rest).1, (read_frames_append frames _).1]
  exact ⟨_, rfl⟩

end Framing

namespace Rpc

variable {η : Type} {c : Client η} {e : Event η}

open Client Framing

/-! ### Whom a payload calls -/

/-- The handler that an event sets for a method. -/
def Event.handler? (method : String) : Event η → Option η
  | .onNotification name handler => if name = method then some handler else none
  | _ => none

/-- The handler that was set last for a method. -/
def registered (events : List (Event η)) (method : String) : Option η :=
  (events.filterMap (Event.handler? method)).getLast?

/-- The handlers that a payload calls if it is taken after some events: the one that was set
last for the method of a notification, and whoever answers requests. -/
def called (before : List (Event η)) (payload : List Char) : List (Handled η) :=
  match Message.parse payload with
  | .ok (.notification n) => ((registered before n.method).map (.notification · n)).toList
  | .ok (.request r) => ((installed before).map fun _ => .request r).toList
  | _ => []

/-- Removing the entry of one method does not change what is found for another. A handler is set by
removing the entry of its method and adding a new one, so this is what keeps the others. -/
theorem lookup_filter_ne {name method : String} (h : name ≠ method) (handlers : List (String × η)) :
    (handlers.filter fun entry => entry.1 != name).lookup method = handlers.lookup method := by
  induction handlers with
  | nil => rfl
  | cons entry handlers ih =>
    obtain ⟨key, handler⟩ := entry
    by_cases hkey : key = name
    · have hmethod : (method == key) = false :=
        beq_eq_false_iff_ne.mpr fun heq => h (hkey ▸ heq.symm)
      rw [List.filter_cons_of_neg (by simp [hkey]), ih, List.lookup_cons, hmethod]
    · rw [List.filter_cons_of_pos (by simp [hkey]), List.lookup_cons, List.lookup_cons, ih]

/-- What a step makes of the handler of a method: an event that sets one for it replaces what was
there, and all others leave it. -/
theorem lookup_step (c : Client η) (e : Event η) (method : String) :
    (c.step e).handlers.lookup method = (e.handler? method).or (c.handlers.lookup method) := by
  cases hinstalls : e.installs with
  | false =>
    have hnone : e.handler? method = none := by
      cases e with
      | onNotification => cases hinstalls
      | _ => rfl
    have hsetup := congrArg Setup.handlers (setup_step c hinstalls)
    rw [hnone, Option.none_or]
    exact congrArg (List.lookup method) hsetup
  | true =>
    cases e with
    | onRequest => rfl
    | onNotification name handler =>
      -- The entry of the same method goes and the new one comes first. For another method both make
      -- no difference.
      show ((name, handler) :: c.handlers.filter fun entry => entry.1 != name).lookup method = _
      rw [List.lookup_cons, Event.handler?]
      by_cases hname : name = method
      · rw [if_pos hname, beq_iff_eq.mpr hname.symm]
        rfl
      · rw [if_neg hname, beq_eq_false_iff_ne.mpr (Ne.symm hname), Option.none_or]
        exact lookup_filter_ne hname c.handlers
    | _ => cases hinstalls

/-- A method has the handler that was set last for it, whatever else has happened in the run. -/
theorem lookup_run (events : List (Event η)) (method : String) :
    (ran events).handlers.lookup method = registered events method := by
  induction events using List.reverseRecOn with
  | nil => rfl
  | append_singleton events e ih =>
    rw [ran, run_concat, lookup_step, registered, getLast?_filterMap_concat]
    exact congrArg (Option.or _) ih

/-- Whom a payload calls in the state after a run is what the events of the run say: the handler
last set for its method, and the replier last set for requests. -/
theorem heard_ran (events : List (Event η)) (payload : List Char) :
    (ran events).heard payload = called events payload := by
  unfold heard called
  cases Message.parse payload with
  | error e => rfl
  | ok m =>
    cases m with
    | request r =>
      exact congrArg (fun replier => (Option.map _ replier).toList) (replier_run events)
    | notification n =>
      exact congrArg (fun handler => (Option.map _ handler).toList) (lookup_run events n.method)
    | response r => rfl

/-- A step calls the handlers of what it takes, and these are the ones set by then. Only a look for
the next payload takes anything. -/
theorem handled_step (c : Client η) (e : Event η) :
    (c.step e).handled = c.handled ++ (c.taken e).flatMap c.heard := by
  -- A step that takes nothing calls nobody.
  have quiet : (e = .receiveNext → ∀ payload, ¬ c.Arrives payload) → c.taken e = [] →
      (c.step e).handled = c.handled ++ (c.taken e).flatMap c.heard := by
    intro hnone htaken
    rw [(advance_step c e).handled hnone, htaken, List.flatMap_nil, List.append_nil]
  cases e with
  | receiveNext =>
    cases harriving : c.arriving? with
    | none =>
      refine quiet (fun _ payload harrives => ?_) ?_
      · exact nomatch harriving.symm.trans (arriving?_eq_some.mpr harrives)
      · rw [taken, harriving]
        rfl
    | some payload =>
      rw [(handled_of_arrives (arriving?_eq_some.mp harriving)).1, taken, harriving,
        Option.toList_some, List.flatMap_singleton]
  | _ => exact quiet (fun heq => by cases heq) rfl

/-! ### What is taken in a run -/

/-- The payloads that are taken after some events, each with what has happened before. -/
def inboxFrom (before : List (Event η)) :
    List (Event η) → List (List (Event η) × List Char)
  | [] => []
  | e :: events => ((ran before).taken e).map (before, ·) ++ inboxFrom (before ++ [e]) events

/-- The payloads that are taken in a run, each with what has happened before. -/
def inbox (events : List (Event η)) : List (List (Event η) × List Char) := inboxFrom [] events

/-- The event that comes last adds what it takes, together with all that has happened before it. The
inbox is told from the first event on, and inductions on a run need it from the last. -/
theorem inboxFrom_concat (before events : List (Event η)) (e : Event η) :
    inboxFrom before (events ++ [e]) = inboxFrom before events ++
      ((ran (before ++ events)).taken e).map (before ++ events, ·) := by
  induction events generalizing before with
  | nil =>
    rw [List.nil_append, inboxFrom, inboxFrom, inboxFrom, List.append_nil, List.append_nil,
      List.nil_append]
  | cons first events ih =>
    rw [List.cons_append, inboxFrom, ih, inboxFrom, List.append_assoc, List.append_assoc]
    rfl

/-- What was received is what was taken, and the handlers that were called are those of the
payloads, as they were set when these were taken. By induction on the run: `handled_step` says what
the last event calls, and `heard_ran` puts it in terms of the events before. -/
theorem handled_run (events : List (Event η)) :
    (ran events).received = (inbox events).map Prod.snd ∧
      (ran events).handled = (inbox events).flatMap fun taken => called taken.1 taken.2 := by
  induction events using List.reverseRecOn with
  | nil => exact ⟨rfl, rfl⟩
  | append_singleton events e ih =>
    obtain ⟨hreceived, hhandled⟩ := ih
    -- The inbox grows by what the last event takes, together with the events before it.
    have hinbox : inbox (events ++ [e]) =
        inbox events ++ ((ran events).taken e).map (events, ·) := inboxFrom_concat [] events e
    rw [hinbox, ran, run_concat]
    refine ⟨?_, ?_⟩
    · rw [(record_step _ e).2, List.map_append, List.map_map]
      show (ran events).received ++ _ = _
      rw [hreceived]
      exact congrArg _ (List.map_id _).symm
    · rw [handled_step, List.flatMap_append, List.flatMap_map]
      show (ran events).handled ++ _ = _
      rw [hhandled]
      exact congrArg _ (List.flatMap_congr fun payload _ => heard_ran events payload)

/-! ### Single payloads -/

/-- A payload that is for nobody after some events: it is no message, or a notification whose
method has no handler, or a response whose id no call in the table has. -/
inductive Stray (events : List (Event η)) (payload : List Char) : Prop where
  | unreadable (fault : Json.Fault) (parse : Message.parse payload = .error fault)
  | unhandled (n : Notification) (parse : Message.parse payload = .ok (.notification n))
      (nobody : registered events n.method = none)
  | unasked (r : Response) (parse : Message.parse payload = .ok (.response r))
      (nobody : ∀ number ∈ (ran events).pending, r.id ≠ .nat (wireId number))

/-- A payload that is for nobody is only taken. Table and handlers are all that decides for whom it
is, so it is enough that `c` has those of the run. -/
theorem accept_of_stray {events : List (Event η)} {payload : List Char} (h : Stray events payload)
    (hpending : c.pending = (ran events).pending) (hhandlers : c.handlers = (ran events).handlers) :
    c.accept payload = { c with received := c.received ++ [payload] } := by
  cases h with
  | unreadable fault parse => rw [accept, parse]
  | unhandled n parse nobody =>
    rw [accept, parse]
    dsimp only
    rw [acceptNotification]
    dsimp only
    rw [hhandlers, lookup_run, nobody]
  | unasked r parse nobody =>
    -- No entry of the table has the id, so the search finds none.
    have hnone : ((word64? r.id).bind fun id => c.pending.find? fun n => wireId n = id) = none := by
      rw [Option.bind_eq_none_iff]
      intro id hid
      rw [List.find?_eq_none]
      intro number hnumber heq
      refine nobody number (hpending ▸ hnumber) ?_
      rw [eq_nat_of_word64? hid, of_decide_eq_true heq]
    rw [accept, parse]
    dsimp only
    rw [acceptResponse]
    dsimp only
    rw [hnone]

/-- A request is handed to whoever answers, and the answer is queued. Without anyone who answers the
other end is told that the method is not known. -/
theorem accept_of_request {payload : List Char} {r : Request}
    (hparse : Message.parse payload = .ok (.request r)) (c : Client η) :
    c.accept payload =
      ({ c with
        received := c.received ++ [payload]
        handled := c.handled ++ c.heard payload } : Client η).queue
          (.response (answerBy c.replier r)) := by
  unfold accept heard
  rw [hparse]
  dsimp only
  unfold acceptRequest
  dsimp only
  cases c.replier with
  | none =>
    rw [Option.map_none, Option.toList_none, List.append_nil]
    rfl
  | some reply => rfl

/-! ### Every run -/

/-- What holds of the messages of the other end after a run. -/
structure Heeded (events : List (Event η)) : Prop where
  /-- The payloads that were taken are the first messages of what has come in. -/
  received : (ran events).received <+: bodies (Decoder.text (inflow events))
  /-- If the other end sends frames, they are the bodies of the first frames. -/
  inOrder : ∀ frames : List TextFrame, inflow events <+: encode (frames.flatMap TextFrame.text) →
    (ran events).received <+: frames.map TextFrame.body
  /-- As long as the dispatcher runs, a look takes the body of the next frame that has come in
  whole. -/
  next : ∀ (front : List TextFrame) (f : TextFrame) (back : List TextFrame),
    inflow events <+: encode ((front ++ f :: back).flatMap TextFrame.text) →
    encode ((front ++ [f]).flatMap TextFrame.text) <+: inflow events →
    (ran events).dispatcher = .running →
    (ran events).received = front.map TextFrame.body →
    (ran (events ++ [.receiveNext])).received = (front ++ [f]).map TextFrame.body
  /-- No look ends the dispatcher as long as more can come in. -/
  goesOn : ∀ frames : List TextFrame, inflow events <+: encode (frames.flatMap TextFrame.text) →
    (ran events).dispatcher = .running → (ran events).stream.reading = true →
    (ran (events ++ [.receiveNext])).dispatcher = .running
  /-- The handlers that were called are those that the payloads call, as they were set when the
  payloads were taken. -/
  handled : (ran events).received = (inbox events).map Prod.snd ∧
    (ran events).handled = (inbox events).flatMap fun taken => called taken.1 taken.2
  /-- A payload that is for nobody is taken and changes nothing else. -/
  stray : ∀ payload, (ran events).Arrives payload → Stray events payload →
    ∃ framing incoming,
      ran (events ++ [.receiveNext]) = (ran events).taking framing incoming payload
  /-- A request calls whoever answers, queues the answer and changes nothing else. If nobody
  answers, no method is known. -/
  request : ∀ payload r, (ran events).Arrives payload →
    Message.parse payload = .ok (.request r) → ∃ framing incoming,
      ran (events ++ [.receiveNext]) =
        { (ran events).taking framing incoming payload with
          handled := (ran events).handled ++ called events payload }.queue
            (.response (answerBy (installed events) r))
  /-- No payload ends the dispatcher. -/
  lasts : ∀ payload, (ran events).Arrives payload →
    (ran (events ++ [.receiveNext])).dispatcher = .running

/-- What the other end sends is taken once and in order, and handed to whoever is set for it, in
every run. The clauses on frames ask what has come in to be the beginning of well-formed frames;
those on single payloads hold whatever comes in. -/
theorem heeded (events : List (Event η)) : Heeded events where
  received := received_prefix_bodies events
  inOrder frames hframes := (received_prefix_bodies events).trans (read_of_frames hframes).2
  -- The bodies of the frames that have come in whole begin with those taken, so the next one to be
  -- taken is that of `f`.
  next front f back hframes hwhole hrunning hreceived := by
    have hsound := (read_of_frames hframes).1
    obtain ⟨more, hbodies⟩ := bodies_of_frames hwhole
    have harriving := arriving?_of_running hrunning hsound
    rw [hbodies, hreceived, List.map_append, List.append_assoc, List.drop_left] at harriving
    have htaken : (ran events).taken .receiveNext = [f.body] := by
      rw [taken, harriving]
      rfl
    rw [ran, run_concat, (record_step _ _).2]
    show (ran events).received ++ (ran events).taken .receiveNext = _
    rw [htaken, hreceived, List.map_append]
    rfl
  goesOn frames hframes hrunning hreading := by
    rw [ran, run_concat]
    exact running_receiveNext hrunning hreading (read_of_frames hframes).1
  handled := handled_run events
  stray payload harrives hstray := by
    obtain ⟨framing, incoming, heq⟩ := receiveNext_of_arrives harrives
    refine ⟨framing, incoming, ?_⟩
    rw [ran, run_concat]
    exact heq.trans (accept_of_stray hstray rfl rfl)
  request payload r harrives hparse := by
    obtain ⟨framing, incoming, heq⟩ := receiveNext_of_arrives harrives
    refine ⟨framing, incoming, ?_⟩
    rw [ran, run_concat, ← replier_run, ← heard_ran]
    exact heq.trans (accept_of_request hparse _)
  -- Accepting a payload concerns callers, handlers and queue. Whether the dispatcher goes on was
  -- decided before.
  lasts payload harrives := by
    obtain ⟨framing, incoming, heq⟩ := receiveNext_of_arrives harrives
    obtain ⟨_, _, _, _, _, haccept⟩ :=
      ((ran events).reading framing incoming).accept_eq payload
    rw [ran, run_concat]
    exact (congrArg Client.dispatcher (heq.trans haccept)).trans harrives.1

end Rpc

end LanguageClient
