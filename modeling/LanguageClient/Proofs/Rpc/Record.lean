import LanguageClient.Proofs.Rpc.Correlation

/-!
# `LanguageClient.Proofs.Rpc.Record`: what a client has said and heard

A client keeps a record of itself: the messages it has queued, the payloads it has taken,
the handlers it has called. Steps add to the record and take nothing away.

* `advance_step`: what a step adds. Only the owner of the client makes it say something of
  its own or sets whom it calls (`Event.directs`); only a message of the other end that is
  taken calls a handler.
* `Recorded`: a client that is the outcome of a run, with its handlers, the number of its
  calls and what it has said so far (`Utterance`), and how these go on.
* `Asked` / `Answered`: a call, and a call that has ended well. Both last.
* `Recorded.exists_response`: for a call that has ended well, the response is among the
  payloads that were taken.
-/

set_option autoImplicit false

namespace LanguageClient.Rpc

variable {η : Type}

/-! ### What is said -/

/-- What a client says of its own accord. -/
inductive Utterance where
  | request (id : Json) (method : String)
  | notification (method : String)
  deriving DecidableEq, Repr

/-- What a message says; an answer to the other end says nothing of its own. -/
def Message.utterance? : Message → Option Utterance
  | .request r => some (.request r.id r.method)
  | .notification n => some (.notification n.method)
  | .response _ => none

/-- What messages say, in order. -/
def utterances (messages : List Message) : List Utterance := messages.filterMap Message.utterance?

/-- What messages say is said in their order. -/
theorem utterances_append (before after : List Message) :
    utterances (before ++ after) = utterances before ++ utterances after := List.filterMap_append

/-- Answers to the other end say nothing of their own. -/
theorem utterances_responses (responses : List Response) :
    utterances (responses.map .response) = [] := by
  refine List.filterMap_eq_nil_iff.mpr fun m hm => ?_
  obtain ⟨r, -, rfl⟩ := List.mem_map.mp hm
  rfl

/-- Whether an event is the owner's who tells the client what to say or whom to call. -/
def Event.directs : Event η → Bool
  | .request _ _ _ | .notify _ _ | .onNotification _ _ | .onRequest _ => true
  | _ => false

/-- Whom a client calls. -/
structure Setup (η : Type) where
  handlers : List (String × η)
  replier : Option (Request → Response)

/-! ### Steps -/

namespace Client

/-- Whom a client calls as things stand. -/
def setup (c : Client η) : Setup η := ⟨c.handlers, c.replier⟩

/-- The handlers that a payload calls. -/
def heard (c : Client η) (payload : List Char) : List (Handled η) :=
  match Message.parse payload with
  | .ok (.notification n) => ((c.handlers.lookup n.method).map (.notification · n)).toList
  | .ok (.request r) => (c.replier.map fun _ => .request r).toList
  | _ => []

end Client

open Client

/-- What a step adds to the record of a client. -/
structure Advance (c : Client η) (e : Event η) (after : Client η) : Prop where
  stopping : c.stopping = true → after.stopping = true
  /-- Unless the owner wants something said, only answers to the other end are queued. -/
  said : e.directs = false →
    ∃ responses : List Response, after.accepted = c.accepted ++ responses.map .response
  received : c.received <+: after.received
  setup : e.directs = false → after.setup = c.setup
  /-- Without a payload that is taken, no handler is called. -/
  handled : (e = .receiveNext → ∀ payload, ¬ c.Arrives payload) → after.handled = c.handled

variable {c after : Client η} {e : Event η}

/-- A step that adds nothing, but for the owner. -/
theorem Advance.of_same (stopping : c.stopping = true → after.stopping = true)
    (said : e.directs = false → after.accepted = c.accepted)
    (received : after.received = c.received) (setup : e.directs = false → after.setup = c.setup)
    (handled : after.handled = c.handled) : Advance c e after where
  stopping := stopping
  said hquiet := ⟨[], (said hquiet).trans (List.append_nil _).symm⟩
  received := received ▸ List.prefix_rfl
  setup := setup
  handled _ := handled

/-- A step that the owner wants may change what is said and whom the client calls. -/
theorem Advance.of_directs (h : e.directs = true)
    (stopping : c.stopping = true → after.stopping = true) (received : after.received = c.received)
    (handled : after.handled = c.handled) : Advance c e after :=
  .of_same stopping (fun hquiet => absurd (h.symm.trans hquiet) Bool.noConfusion) received
    (fun hquiet => absurd (h.symm.trans hquiet) Bool.noConfusion) handled

/-- A payload that is taken adds itself to the record, and the answer to it if it is a request. What
is set up stays, and the handlers that it calls are known from the payload. -/
theorem advance_accept {payload : List Char} (harrives : c.Arrives payload)
    (framing : Framing) (incoming : List (List Char)) :
    Advance c .receiveNext (({ c with framing, stream := { c.stream with incoming } } :
      Client η).accept payload) := by
  have hreceived : c.received <+: c.received ++ [payload] := List.prefix_append _ _
  have hnone : c.accepted = c.accepted ++ ([] : List Response).map .response :=
    (List.append_nil _).symm
  have hheard : ∀ {handled : List (Handled η)},
      ((.receiveNext : Event η) = .receiveNext → ∀ payload, ¬ c.Arrives payload) →
        handled = c.handled := fun hnot => absurd harrives (hnot rfl payload)
  -- Only a request can put something in the queue, the reply to it.
  unfold accept
  dsimp only
  split
  · unfold acceptResponse
    split
    · exact ⟨id, fun _ => ⟨[], hnone⟩, hreceived, fun _ => rfl, hheard⟩
    · exact ⟨id, fun _ => ⟨[], hnone⟩, hreceived, fun _ => rfl, hheard⟩
  · unfold acceptNotification
    split
    · exact ⟨id, fun _ => ⟨[], hnone⟩, hreceived, fun _ => rfl, hheard⟩
    · exact ⟨id, fun _ => ⟨[], hnone⟩, hreceived, fun _ => rfl, hheard⟩
  · unfold acceptRequest
    split
    · exact ⟨id, fun _ => ⟨[_], rfl⟩, hreceived, fun _ => rfl, hheard⟩
    · exact ⟨id, fun _ => ⟨[_], rfl⟩, hreceived, fun _ => rfl, hheard⟩
  · exact ⟨id, fun _ => ⟨[], hnone⟩, hreceived, fun _ => rfl, hheard⟩

/-- A look for the next payload adds what it finds to the record. If there is no payload, it adds
nothing. -/
theorem advance_receiveNext (c : Client η) : Advance c .receiveNext c.receiveNext := by
  rcases c.receiveNext_cases with ⟨payload, hpayload⟩ |
    ⟨framing, incoming, connected, notices, heq | heq⟩
  · obtain ⟨framing, incoming, heq⟩ := receiveNext_of_arrives hpayload
    rw [heq]
    exact advance_accept hpayload framing incoming
  · rw [heq]
    exact .of_same id (fun _ => rfl) rfl (fun _ => rfl) rfl
  · rw [heq]
    exact .of_same id (fun _ => rfl) rfl (fun _ => rfl) rfl

/-- A caller who looks adds nothing. -/
theorem advance_look (c : Client η) (e : Event η) (number : Nat) (f : Call → Call) :
    Advance c e (c.look number f) := by
  obtain ⟨calls, pending, -, heq⟩ := c.look_eq number f
  rw [heq]
  exact .of_same id (fun _ => rfl) rfl (fun _ => rfl) rfl

/-- Every event only adds to the record. What it adds depends on whether the owner directs it, and
that is what the fields of `Advance` are told apart by. -/
theorem advance_step (c : Client η) (e : Event η) : Advance c e (c.step e) := by
  -- Events that come when they are not due leave the client as it is.
  have same : ∀ {e : Event η}, Advance c e c := .of_same id (fun _ => rfl) rfl (fun _ => rfl) rfl
  cases e with
  | request method params shape =>
    -- Directed by the owner, so nothing is promised of what it queues.
    simp only [step, request]
    split
    · exact .of_directs rfl id rfl rfl
    · exact .of_directs rfl id rfl rfl
  | notify method params =>
    by_cases hended : c.dispatcher = .ended
    · simp only [step, notify, if_pos hended]
      exact same
    · simp only [step, notify, if_neg hended]
      exact .of_directs rfl id rfl rfl
  -- Looking touches one call and the table, and neither is part of the record.
  | resume number => exact advance_look c _ number Call.resume
  | expire number => exact advance_look c _ number Call.expire
  | onNotification | onRequest => exact .of_directs rfl id rfl rfl
  | sendNext =>
    show Advance c _ c.sendNext
    unfold sendNext
    split
    · split
      · exact .of_same id (fun _ => rfl) rfl (fun _ => rfl) rfl
      · exact .of_same id (fun _ => rfl) rfl (fun _ => rfl) rfl
    · exact same
  | receiveNext => exact advance_receiveNext c
  | stop =>
    show Advance c _ c.stop
    unfold stop
    split
    · exact .of_same id (fun _ => rfl) rfl (fun _ => rfl) rfl
    · exact same
  -- A client that is being closed stays so; this makes it one.
  | beginClose => exact .of_same (fun _ => rfl) (fun _ => rfl) rfl (fun _ => rfl) rfl
  | endClose =>
    simp only [step]
    split
    · exact .of_same id (fun _ => rfl) rfl (fun _ => rfl) rfl
    · exact same
  | forceClose =>
    simp only [step, forceClose]
    split
    · split
      · exact .of_same id (fun _ => rfl) rfl (fun _ => rfl) rfl
      · exact .of_same id (fun _ => rfl) rfl (fun _ => rfl) rfl
    · exact same
  | abandon | cancelAll | drop | write | deliver | finish | breakOff =>
    exact .of_same id (fun _ => rfl) rfl (fun _ => rfl) rfl

/-- Whether an event sets whom the client calls. -/
def Event.installs : Event η → Bool
  | .onNotification _ _ | .onRequest _ => true
  | _ => false

/-- Other events change nothing about whom the client calls. So handlers that were set stay, until
the owner sets others. -/
theorem setup_step (c : Client η) {e : Event η} (h : e.installs = false) :
    (c.step e).setup = c.setup := by
  cases e with
  | onNotification | onRequest => cases h
  | request method params shape =>
    simp only [step, request]
    split
    · rfl
    · rfl
  | notify method params =>
    by_cases hended : c.dispatcher = .ended
    · simp only [step, notify, if_pos hended]
    · simp only [step, notify, if_neg hended]
      rfl
  | _ => exact (advance_step c _).setup rfl

/-- Without the owner nothing new is said. The answers to the other end are queued, but they are not
counted as said. -/
theorem utterances_quiet (c : Client η) {e : Event η} (hquiet : e.directs = false) :
    utterances (c.step e).accepted = utterances c.accepted := by
  obtain ⟨responses, heq⟩ := (advance_step c e).said hquiet
  rw [heq, utterances_append, utterances_responses, List.append_nil]

/-- A payload that is taken calls the handlers that it is for. Each kind of message has its own: a
response calls none, and the others call the one that is set, if any. -/
theorem Client.handled_of_arrives {payload : List Char} (h : c.Arrives payload) :
    (c.step .receiveNext).handled = c.handled ++ c.heard payload ∧
      payload ∈ (c.step .receiveNext).received := by
  obtain ⟨framing, incoming, heq⟩ := receiveNext_of_arrives h
  have hlast : payload ∈ c.received ++ [payload] :=
    List.mem_append_right _ (List.mem_singleton.mpr rfl)
  show c.receiveNext.handled = _ ∧ payload ∈ c.receiveNext.received
  rw [heq]
  unfold accept heard
  cases Message.parse payload with
  -- A payload that is no message calls nobody.
  | error e => exact ⟨(List.append_nil _).symm, hlast⟩
  | ok m =>
    cases m with
    | response r =>
      dsimp only
      unfold acceptResponse
      split
      · exact ⟨(List.append_nil _).symm, hlast⟩
      · exact ⟨(List.append_nil _).symm, hlast⟩
    | notification n =>
      dsimp only
      unfold acceptNotification
      dsimp only
      cases c.handlers.lookup n.method with
      | none => exact ⟨(List.append_nil _).symm, hlast⟩
      | some handler => exact ⟨rfl, hlast⟩
    | request r =>
      dsimp only
      unfold acceptRequest
      dsimp only
      cases c.replier with
      | none => exact ⟨(List.append_nil _).symm, hlast⟩
      | some reply => exact ⟨rfl, hlast⟩

/-- What has been taken stays on record. -/
theorem Client.received_run (c : Client η) (events : List (Event η)) :
    c.received <+: (c.run events).received := by
  induction events generalizing c with
  | nil => exact List.prefix_rfl
  | cons e events ih => exact (advance_step c e).received.trans (ih (c.step e))

/-! ### Runs -/

namespace Client

/-- A client that is the outcome of a run, with what was set, how many calls were made and
what was said. -/
structure Recorded (c : Client η) (setup : Setup η) (calls : Nat) (said : List Utterance) :
    Prop where
  run : ∃ events, c = ran events
  setup : c.setup = setup
  calls : c.calls.length = calls
  said : utterances c.accepted = said

/-- A call of a number asks for a result of a shape. -/
def Asked (c : Client η) (n : Nat) (shape : Shape) : Prop :=
  ∃ call, c.call? n = some call ∧ call.shape = shape

/-- A call of a number asked for a result of a shape, and got one. -/
def Answered (c : Client η) (n : Nat) (shape : Shape) : Prop :=
  ∃ call v, c.call? n = some call ∧ call.shape = shape ∧ call.outcome? = some (.ok v)

/-- A call that was made for a result, and has one, was answered. -/
theorem Asked.answered {n : Nat} {shape : Shape} (h : c.Asked n shape) {v : Json}
    (houtcome : c.outcome? n = some (.ok v)) : c.Answered n shape := by
  obtain ⟨call, hcall, hshape⟩ := h
  rw [outcome?, hcall, Option.bind_some] at houtcome
  exact ⟨call, v, hcall, hshape, houtcome⟩

variable {setup : Setup η} {calls : Nat} {said : List Utterance}

/-- A step of a run is a run. -/
theorem Recorded.step_run (h : c.Recorded setup calls said) (e : Event η) :
    ∃ events, c.step e = ran events := by
  obtain ⟨events, rfl⟩ := h.run
  exact ⟨events ++ [e], (run_concat _ _ _).symm⟩

/-- Without the owner there is nothing new: the same setup, the same calls and the same words. So
only what the owner directs has to be followed in a conversation. -/
theorem Recorded.quiet (h : c.Recorded setup calls said) {e : Event η}
    (hquiet : e.directs = false) : (c.step e).Recorded setup calls said := by
  refine ⟨h.step_run e, ((advance_step c e).setup hquiet).trans h.setup, ?_, ?_⟩
  · have hrequest : e.isRequest = false := by
      cases e with
      | request => exact nomatch hquiet
      | _ => rfl
    rw [length_step, hrequest, h.calls]
    rfl
  · exact (utterances_quiet c hquiet).trans h.said

/-- As long as messages are moved, a notification can be queued, and it is what was said last.
Neither the calls nor the setup change by it. -/
theorem Recorded.notify (h : c.Recorded setup calls said) (hrunning : c.dispatcher = .running)
    (method : String) (params : Option Json) :
    (c.queue (.notification { method, params })).Recorded setup calls
      (said ++ [.notification method]) := by
  have hnot : ¬ c.dispatcher = .ended := by
    rw [hrunning]
    exact nofun
  have hstep : c.step (.notify method params) = c.queue (.notification { method, params }) := by
    simp only [step, Client.notify, if_neg hnot]
  refine ⟨hstep ▸ h.step_run (.notify method params), h.setup, h.calls, ?_⟩
  rw [queue, utterances_append, h.said]
  rfl

/-- With few calls the table is sound. -/
theorem Recorded.sound (h : c.Recorded setup calls said) (hfew : calls < Nat.pow 2 64) :
    c.Sound := by
  obtain ⟨events, rfl⟩ := h.run
  exact sound_run sound_fresh events (h.calls ▸ hfew)

/-- The call that is made last is found under its number. -/
theorem Sound.call?_concat (h : c.Sound) (after : Client η) {fresh : Call}
    (hcalls : after.calls = c.calls ++ [fresh]) (hnumber : fresh.number = c.calls.length + 1) :
    after.call? (c.calls.length + 1) = some fresh := by
  have hmem : fresh ∈ after.calls := hcalls ▸ List.mem_append_right _ (List.mem_singleton.mpr rfl)
  rw [← hnumber]
  exact (h.numbers.of_concat hcalls hnumber).call?_of_mem hmem

/-- A request gets the next number. It is queued as long as messages are moved, and else it fails at
once. The number is known in advance, which is why a conversation can be told by numbers. -/
theorem Recorded.request (h : c.Recorded setup calls said) (hfew : calls + 1 < Nat.pow 2 64)
    (method : String) (params : Option Json) (shape : Shape) {n : Nat} {after : Client η}
    (hrequest : c.request method params shape = (n, after)) :
    n = calls + 1 ∧ after.Asked (calls + 1) shape ∧
      (c.dispatcher = .running →
        after.Recorded setup (calls + 1) (said ++ [.request (.nat (calls + 1)) method])) ∧
      (c.dispatcher = .ended →
        after.Recorded setup (calls + 1) said ∧
          after.outcome? (calls + 1) = some (.error .disconnected)) := by
  -- With the counter below its limit the number of the request is new.
  have hsound := h.sound (Nat.lt_of_succ_lt hfew)
  have hstep : c.step (.request method params shape) = after := congrArg Prod.snd hrequest
  have hrun : ∃ events, after = ran events := hstep ▸ h.step_run _
  obtain rfl := h.calls
  cases hdispatcher : c.dispatcher with
  | running =>
    -- The call is entered, and its request is queued under its number.
    obtain ⟨rfl, rfl⟩ :=
      Prod.mk.inj (hrequest.symm.trans (request_of_running hsound hfew hdispatcher _ _ _))
    have hcall := hsound.call?_concat (c.entering method params shape) rfl rfl
    refine ⟨rfl, ⟨_, hcall, rfl⟩, fun _ => ⟨hrun, h.setup, List.length_append, ?_⟩, nofun⟩
    rw [entering, utterances_append, h.said]
    rfl
  | ended =>
    -- The call has its outcome from the start, and nothing is queued.
    obtain ⟨rfl, rfl⟩ :=
      Prod.mk.inj (hrequest.symm.trans (request_of_ended hsound hfew hdispatcher _ _ _))
    have hcall := hsound.call?_concat (c.refusing shape) rfl rfl
    refine ⟨rfl, ⟨_, hcall, rfl⟩, nofun, fun _ => ⟨⟨hrun, h.setup, List.length_append, h.said⟩, ?_⟩⟩
    rw [outcome?, hcall]
    rfl

/-- A call goes on in a step: it is found under its number, and has not become another. The bound on
the calls leaves room for one more, since the step may make one. -/
theorem Recorded.later (h : c.Recorded setup calls said) (hfew : calls + 1 < Nat.pow 2 64)
    (e : Event η) {n : Nat} {call : Call} (hcall : c.call? n = some call) :
    ∃ call', (c.step e).call? n = some call' ∧ call.Later call' := by
  have hsound := h.sound (Nat.lt_of_succ_lt hfew)
  have hlength : (c.step e).calls.length < Nat.pow 2 64 := by
    rw [length_step, h.calls]
    split
    · exact hfew
    · exact Nat.lt_of_succ_lt hfew
  obtain ⟨call', hcall', hturn⟩ := (effect_step hsound e hlength).exists_turn hsound hcall
  exact ⟨call', hcall', hturn.later⟩

/-- A call stays made. -/
theorem Asked.step {n : Nat} {shape : Shape} (ha : c.Asked n shape)
    (h : c.Recorded setup calls said) (hfew : calls + 1 < Nat.pow 2 64) (e : Event η) :
    (c.step e).Asked n shape := by
  obtain ⟨call, hcall, hshape⟩ := ha
  obtain ⟨call', hcall', hlater⟩ := h.later hfew e hcall
  exact ⟨call', hcall', hlater.shape.trans hshape⟩

/-- A call that was answered stays so: an end lasts. The bound on the calls is needed for its number
to be its own. -/
theorem Answered.step {n : Nat} {shape : Shape} (ha : c.Answered n shape)
    (h : c.Recorded setup calls said) (hfew : calls + 1 < Nat.pow 2 64) (e : Event η) :
    (c.step e).Answered n shape := by
  obtain ⟨call, v, hcall, hshape, houtcome⟩ := ha
  obtain ⟨call', hcall', hlater⟩ := h.later hfew e hcall
  have hended := hlater.progress _ (Call.outcome?_eq_some.mp houtcome)
  exact ⟨call', v, hcall', hlater.shape.trans hshape, Call.outcome?_eq_some.mpr hended⟩

/-- What ended a call well is among the payloads that were taken: a response with its number
as id, whose result has the form asked for. -/
theorem Recorded.exists_response (h : c.Recorded setup calls said) (hfew : calls < Nat.pow 2 64)
    {n : Nat} {shape : Shape} (ha : c.Answered n shape) :
    ∃ payload ∈ c.received, ∃ r v, Message.parse payload = .ok (.response r) ∧ r.id = .nat n ∧
      r.outcome shape = .ok v := by
  have hsound := h.sound hfew
  obtain ⟨call, v, hcall, rfl, houtcome⟩ := ha
  -- The mailbox holds the response, and one step has put it there.
  obtain ⟨r, hfilled, hdecided⟩ := filled_of_decided
    (hsound.settled call (mem_of_call? hcall).1) (Call.outcome?_eq_some.mp houtcome) rfl
  obtain ⟨events, rfl⟩ := h.run
  obtain ⟨before, rest, rfl, -, payload, harrives, hparse, hid⟩ :=
    exists_answers events (h.calls ▸ hfew) hcall hfilled
  refine ⟨payload, ?_, r, v, hparse, hid, hdecided.symm⟩
  have hgrows := ((ran before).step .receiveNext).received_run rest
  rw [ran, run_append]
  exact hgrows.subset (handled_of_arrives harrives).2

end Client

end LanguageClient.Rpc
