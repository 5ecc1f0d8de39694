import LanguageClient.Proofs.Rpc.Outbound
import LanguageClient.Proofs.Rpc.Record
import LanguageClient.Session.ServerTraffic

/-!
# `LanguageClient.Proofs.Rpc.Replies`: every request of the other end is answered once

The other end sends requests among other things, and waits for an answer to each of them.
The answers share the queue with what the client says of its own accord.

* `arrivals`: the payloads that were taken in a run, in order, each with who was installed to
  answer requests at that moment.
* `responses_run`: the answers that were accepted are those to the requests among the
  arrivals, one each, in order. This holds of every run.
* `sendsFirst`: the dispatcher looks for messages to send before it takes what has arrived.
  So at most the answer to the last arrival waits in the queue, and when the other end is
  lost no answer is lost with it (`responses_dropped`).
* `toJson_answer` / `toJson_unknownMethod`: what an answer looks like.
* `replied`: the answers and where they are, for every run.
-/

set_option autoImplicit false

namespace LanguageClient.Rpc

variable {η : Type} {c after : Client η} {e : Event η}

open Client

/-! ### Requests and answers -/

/-- The answer to the other end that a message is. -/
def Message.response? : Message → Option Response
  | .response r => some r
  | _ => none

/-- The answers among messages, in order. -/
def responses (messages : List Message) : List Response := messages.filterMap Message.response?

/-- The request of the other end that a payload is. -/
def request? (payload : List Char) : Option Request :=
  match Message.parse payload with
  | .ok (.request r) => some r
  | _ => none

/-- The answer to a request, by who is installed to answer. -/
def answerBy : Option (Request → Response) → Request → Response
  | some reply, r => reply r
  | none, r => .unknownMethod r.id r.method

/-- The answers among messages are those among the first and those among the rest. -/
theorem responses_append (before after : List Message) :
    responses (before ++ after) = responses before ++ responses after := List.filterMap_append

/-- A payload is answered exactly if it is a request, by whoever answers at that moment, or else
with the error that no such method is known. -/
theorem reply?_eq (c : Client η) (payload : List Char) :
    c.reply? payload = (request? payload).map (answerBy c.replier) := by
  unfold reply? request?
  cases Message.parse payload with
  | error e => rfl
  | ok m =>
    cases m with
    | request r =>
      dsimp only
      rw [Option.map_some, answerTo]
      cases c.replier with
      | none => rfl
      | some reply => rfl
    | notification n => rfl
    | response r => rfl

/-- A step queues the answers to the requests that it takes, and no others. What a caller asks or
tells the other end is no answer. -/
theorem responses_accepts (c : Client η) (e : Event η) :
    responses (c.accepts e) =
      (c.taken e).filterMap fun payload => (request? payload).map (answerBy c.replier) := by
  cases e with
  | receiveNext =>
    rw [accepts, taken]
    cases c.arriving? with
    | none => rfl
    | some payload =>
      rw [Option.bind_some, Option.toList_some, reply?_eq]
      cases hrequest : request? payload with
      | none =>
        rw [List.filterMap_cons_none (by rw [hrequest]; rfl)]
        rfl
      | some r =>
        rw [List.filterMap_cons_some (by rw [hrequest]; rfl)]
        rfl
  | request =>
    -- A request of a caller is queued as such, or refused.
    rw [accepts]
    split
    · rfl
    · rfl
  | notify =>
    rw [accepts]
    split
    · rfl
    · rfl
  | _ => rfl

/-- A value with a `method` is a request only if it has an id that is not `null`. The kind is told
by the id, and the record is read afterwards from the same object. -/
theorem id_of_ofJson? {v : Json} {r : Request} (h : Message.ofJson? v = some (.request r)) :
    r.id ≠ .null := by
  unfold Message.ofJson? at h
  split at h
  · rename_i method id hmethod hid
    obtain ⟨r', hr, heq⟩ := Option.map_eq_some_iff.mp h
    cases heq
    cases v with
    | object fields =>
      unfold Request.ofJson? at hr
      split at hr
      · rename_i version id' method' params hfields
        obtain ⟨version', -, hrest⟩ := Option.bind_eq_some_iff.mp hr
        obtain ⟨name, -, heq⟩ := Option.bind_eq_some_iff.mp hrest
        cases heq
        -- The id of the record is what the object has under that name.
        have hlookup : Json.lookup fields "id" = some id' := by
          simp only [fields?, List.map_cons, List.map_nil, Option.some.injEq, List.cons.injEq]
            at hfields
          exact hfields.2.1
        rintro rfl
        rw [Json.get?, hlookup] at hid
        cases hid
      · cases hr
    | _ => cases hmethod
  · obtain ⟨n, -, heq⟩ := Option.map_eq_some_iff.mp h
    cases heq
  · obtain ⟨n, -, heq⟩ := Option.map_eq_some_iff.mp h
    cases heq

/-- A request has an id, and it is not `null`. So every answer can be told from all others by its
id. -/
theorem id_ne_null {payload : List Char} {r : Request} (h : request? payload = some r) :
    r.id ≠ .null := by
  -- The payload was parsed, was a message, and was a request; every other way leaves no request.
  -- The id of a request that has been read is known by `id_of_ofJson?`.
  unfold request? at h
  cases hjson : Json.parse payload with
  | error e =>
    simp only [Message.parse, hjson, bind, Except.bind] at h
    cases h
  | ok v =>
    cases hmessage : Message.ofJson? v with
    | none =>
      simp only [Message.parse, hjson, hmessage, bind, Except.bind] at h
      cases h
    | some m =>
      simp only [Message.parse, hjson, hmessage, bind, Except.bind, pure, Except.pure] at h
      cases m with
      | request r' =>
        cases h
        exact id_of_ofJson? hmessage
      | notification n => cases h
      | response r' => cases h

/-! ### What an answer looks like -/

/-- An answer on the wire: it has the id of the request and a `null` result, or an error that
names the method. -/
def replyJson (r : Request) (acknowledged : Bool) : Json :=
  .object [("jsonrpc", .string "2.0"), ("id", r.id),
    if acknowledged then ("result", .null)
    else ("error", .object [("code", .int (-32601)),
      ("message", .string ("Method not found: " ++ r.method))])]

/-- The answer when nobody answers: the error of the protocol for an unknown method, with its name
in the text. -/
theorem toJson_unknownMethod (r : Request) :
    (Response.unknownMethod r.id r.method).toJson = replyJson r false := by
  have hcode : unknownMethodCode.toInt = -32601 := by decide
  simp only [Response.unknownMethod, Response.failure, Response.toJson, ErrorObject.toJson,
    optionalField, Option.map_some, hcode]
  rfl

/-- The answer of a session: `null` for the methods that it acknowledges, and for all others the
error that the method is not known. -/
theorem toJson_answer (r : Request) :
    (Session.answer r).toJson = replyJson r (r.method ∈ Session.acknowledgedMethods) := by
  unfold Session.answer
  split
  · rename_i hmem
    rw [decide_eq_true hmem]
    rfl
  · rename_i hmem
    rw [decide_eq_false hmem]
    exact toJson_unknownMethod r

/-! ### What arrives in a run -/

/-- Who is installed by an event to answer requests. -/
def Event.replier? : Event η → Option (Request → Response)
  | .onRequest replier => some replier
  | _ => none

/-- Who was installed last to answer requests. -/
def installed (events : List (Event η)) : Option (Request → Response) :=
  (events.filterMap Event.replier?).getLast?

/-- The payloads that are taken after some events, each with who is installed to answer. -/
def arrivalsFrom (before : List (Event η)) :
    List (Event η) → List (Option (Request → Response) × List Char)
  | [] => []
  | e :: events =>
    ((ran before).taken e).map (installed before, ·) ++ arrivalsFrom (before ++ [e]) events

/-- The payloads that are taken in a run, each with who was installed to answer. -/
def arrivals (events : List (Event η)) : List (Option (Request → Response) × List Char) :=
  arrivalsFrom [] events

/-- The answers to the requests among arrivals. -/
def answers (arrived : List (Option (Request → Response) × List Char)) : List Response :=
  arrived.filterMap fun a => (request? a.2).map (answerBy a.1)

/-- The event that comes last adds what it takes, together with who answers by then. Arrivals are
told from the first event on, and inductions on a run need them from the last. -/
theorem arrivalsFrom_concat (before events : List (Event η)) (e : Event η) :
    arrivalsFrom before (events ++ [e]) = arrivalsFrom before events ++
      ((ran (before ++ events)).taken e).map (installed (before ++ events), ·) := by
  induction events generalizing before with
  | nil =>
    rw [List.nil_append, arrivalsFrom, arrivalsFrom, arrivalsFrom, List.append_nil,
      List.append_nil, List.nil_append]
  | cons first events ih =>
    rw [List.cons_append, arrivalsFrom, ih, arrivalsFrom, List.append_assoc, List.append_assoc]
    rfl

/-- The event that comes last in a whole run adds what it takes, together with who answers by
then. -/
theorem arrivals_concat (events : List (Event η)) (e : Event η) :
    arrivals (events ++ [e]) =
      arrivals events ++ ((ran events).taken e).map (installed events, ·) :=
  arrivalsFrom_concat [] events e

/-- Who answers requests changes only by an event that installs somebody. So the replier after a run
is the one that was installed last. -/
theorem replier_step (c : Client η) (e : Event η) :
    (c.step e).replier = e.replier?.or c.replier := by
  cases hinstalls : e.installs with
  | false =>
    -- An event that installs nothing leaves the whole setup.
    have hnone : e.replier? = none := by
      cases e with
      | onRequest => cases hinstalls
      | _ => rfl
    rw [hnone, Option.none_or]
    exact congrArg Setup.replier (setup_step c hinstalls)
  | true =>
    cases e with
    | onNotification => rfl
    | onRequest => rfl
    | _ => cases hinstalls

/-- The last of the values that are picked is that of the last element, if it has one. -/
theorem getLast?_filterMap_concat {α β : Type} (f : α → Option β) (xs : List α) (x : α) :
    ((xs ++ [x]).filterMap f).getLast? = (f x).or (xs.filterMap f).getLast? := by
  rw [List.filterMap_append]
  cases h : f x with
  | none => rw [List.filterMap_cons_none h, List.filterMap_nil, List.append_nil, Option.none_or]
  | some y =>
    rw [List.filterMap_cons_some h, List.filterMap_nil, List.getLast?_append,
      List.getLast?_singleton, Option.some_or]

/-- Who answers is who was installed last, whatever else has happened in the run. -/
theorem replier_run (events : List (Event η)) : (ran events).replier = installed events := by
  induction events using List.reverseRecOn with
  | nil => rfl
  | append_singleton events e ih =>
    rw [ran, run_concat, replier_step, installed, getLast?_filterMap_concat]
    exact congrArg (Option.or _) ih

/-- What was received is what arrived, and the answers that were accepted are the answers to it,
each given by who was installed when it arrived. By induction on the run: the last event accepts the
answers to what it takes. -/
theorem responses_run (events : List (Event η)) :
    (ran events).received = (arrivals events).map Prod.snd ∧
      responses (ran events).accepted = answers (arrivals events) := by
  induction events using List.reverseRecOn with
  | nil => exact ⟨rfl, rfl⟩
  | append_singleton events e ih =>
    obtain ⟨hreceived, hanswers⟩ := ih
    obtain ⟨haccepted, htaken⟩ := record_step (ran events) e
    rw [arrivals_concat, ran, run_concat]
    refine ⟨?_, ?_⟩
    · rw [htaken, hreceived, List.map_append, List.map_map]
      exact congrArg _ (List.map_id _).symm
    · -- The last event accepts the answer to what it takes, by whoever is installed by then.
      rw [haccepted, responses_append, hanswers, responses_accepts, replier_run, answers, answers,
        List.filterMap_append, List.filterMap_map]
      rfl

/-! ### Where the answers are -/

/-- Whether an event takes what has arrived. -/
def Event.isReceipt : Event η → Bool
  | .receiveNext => true
  | _ => false

/-- Whether the dispatcher looks for messages to send before it takes what has arrived:
whenever it takes something, the queue was empty at some moment since it did so last
(`polled`). Messages may have been queued in between. -/
def Client.sendsFirst (c : Client η) (polled : Bool) : List (Event η) → Bool
  | [] => true
  | e :: events =>
    let polled := polled || c.outbound.isEmpty
    if e.isReceipt then
      (polled || c.dispatcher == .ended) && (c.step e).sendsFirst false events
    else (c.step e).sendsFirst polled events

/-- Whether the dispatcher looks for messages to send first in a run. -/
def sendsFirst (events : List (Event η)) : Bool := ({} : Client η).sendsFirst false events

/-- An event that takes nothing queues no answer. Requests and notifications of the owner are no
answers. -/
theorem responses_accepts_of_quiet (hquiet : e.isReceipt = false) :
    responses (c.accepts e) = [] := by
  have htaken : c.taken e = [] := by
    cases e with
    | receiveNext => cases hquiet
    | _ => rfl
  rw [responses_accepts, htaken, List.filterMap_nil]

/-- Only what arrives puts answers into the queue. So once the queue has no answers, it stays so
until the next payload is taken. -/
theorem responses_outbound (hquiet : e.isReceipt = false) (hnone : responses c.outbound = []) :
    responses (c.step e).outbound = [] := by
  cases course_step c e with
  | goesOn dispatcher accepted outbound =>
    -- What is added is no answer, since nothing arrives.
    rw [outbound, responses_append, hnone, responses_accepts_of_quiet hquiet, List.append_nil]
  | writes refusal event state =>
    rw [state]
    exact hnone
  | moves m rest event running outbound takes state =>
    -- What is left of the queue has no answer if all of it had none.
    rw [state]
    rw [outbound, ← List.singleton_append, responses_append] at hnone
    exact (List.append_eq_nil_iff.mp hnone).2
  | fails notices event running refuses state =>
    -- The end of the dispatcher empties the queue.
    rw [state]
    rfl
  | loses framing incoming connected notices event running nothing state =>
    rw [state]
    rfl
  | stops event running stopping state =>
    rw [state]
    rfl
  | cuts notices event state =>
    rw [state]
    rfl
  | closes event ended stopping state =>
    rw [state]
    exact hnone

/-- Once the dispatcher has ended, nothing waits that could be dropped. By induction on the events,
since it stays ended. -/
theorem droppedIn_of_ended (hended : c.dispatcher = .ended) (events : List (Event η)) :
    c.droppedIn events = [] := by
  induction events generalizing c with
  | nil => rfl
  | cons e events ih =>
    rw [droppedIn, loss_of_not_ends (ends_of_ended hended e), List.nil_append]
    exact ih ((course_step c e).ended hended)

/-- A dispatcher that ends drops no answer: one that stops moves what is left, and one that loses
the other end has to have moved the answers before (`hnone`). -/
theorem responses_loss (horderly : c.Orderly) (hwriter : c.stream.writer ≠ .failed)
    (hends : c.ends e = true) (hcut : e.cause ≠ .cutOff)
    (hnone : e.isReceipt = true → responses c.outbound = []) : responses (c.loss e) = [] := by
  cases hreceipt : e.isReceipt with
  | true =>
    -- The dispatcher has just looked for what arrives, so the answers have been sent before.
    have hlost : e.cause ≠ .asked := by
      cases e with
      | receiveNext =>
        show Cause.lost ≠ .asked
        decide
      | _ => cases hreceipt
    rw [loss_of_ends hends (.inl hlost)]
    exact hnone hreceipt
  | false =>
    -- Nothing is dropped at all, since the dispatcher is neither cut off nor has it lost the other
    -- end.
    have hloss : c.loss e = [] := by
      refine loss_eq_nil horderly hwriter fun _ => ⟨fun hlost => ?_, hcut⟩
      cases e with
      | receiveNext => cases hreceipt
      | _ => cases hlost
    rw [hloss]
    rfl

/-- No answer is dropped in a run: when the dispatcher takes something, all earlier answers have
been moved. The induction is on the events. Its invariant is that the queue has no answers once it
has been found empty since something was taken last (`hpolled`). -/
theorem responses_droppedIn (horderly : c.Orderly) {polled : Bool}
    (hpolled : polled = true → responses c.outbound = []) (events : List (Event η))
    (hfirst : c.sendsFirst polled events = true)
    (hwriter : (c.run events).stream.writer ≠ .failed)
    (hcut : c.endingIn events ≠ some .cutOff) : responses (c.droppedIn events) = [] := by
  induction events generalizing c polled with
  | nil => rfl
  | cons e events ih =>
    have hbefore : c.stream.writer ≠ .failed :=
      fun hfailed => hwriter (failed_run (e :: events) hfailed)
    have hnow : (polled || c.outbound.isEmpty) = true → responses c.outbound = [] := by
      intro hnow
      rcases Bool.or_eq_true_iff.mp hnow with hearlier | hempty
      · exact hpolled hearlier
      · rw [List.isEmpty_iff.mp hempty]
        rfl
    rw [Client.sendsFirst] at hfirst
    rw [endingIn] at hcut
    rw [droppedIn]
    cases hends : c.ends e with
    | true =>
      -- The dispatcher ends here. If it does so at a look for what arrives, it was running, so the
      -- queue had been polled.
      obtain ⟨hrunning, hended⟩ := ends_iff.mp hends
      rw [if_pos hends] at hcut
      rw [droppedIn_of_ended hended, List.append_nil]
      refine responses_loss horderly hbefore hends (fun hcause => hcut (congrArg some hcause))
        fun hreceipt => hnow ?_
      rw [if_pos hreceipt, hrunning] at hfirst
      have hfound := (Bool.and_eq_true_iff.mp hfirst).1
      rw [Bool.or_eq_true_iff] at hfound
      exact hfound.resolve_right (by decide)
    | false =>
      rw [if_neg (Bool.eq_false_iff.mp hends)] at hcut
      rw [loss_of_not_ends hends, List.nil_append]
      have hlater := horderly.step e
      cases hreceipt : e.isReceipt with
      | true =>
        -- An answer may have been queued, so the queue has to be looked at again.
        rw [if_pos hreceipt] at hfirst
        have hnone : false = true → responses (c.step e).outbound = [] :=
          fun hlooked => by cases hlooked
        exact ih hlater hnone (Bool.and_eq_true_iff.mp hfirst).2 hwriter hcut
      | false =>
        rw [if_neg (Bool.eq_false_iff.mp hreceipt)] at hfirst
        exact ih hlater (fun h => responses_outbound hreceipt (hnow h)) hfirst hwriter hcut

/-- No answer is dropped in a whole run, which begins with nothing polled and an empty queue. -/
theorem responses_dropped {events : List (Event η)} (hfirst : sendsFirst events = true)
    (hwriter : (ran events).stream.writer ≠ .failed) (hcut : endedBy events ≠ some .cutOff) :
    responses (dropped events) = [] :=
  responses_droppedIn (orderly_run []) (fun (hlooked : false = true) => by cases hlooked) events
    hfirst hwriter hcut

/-! ### Runs -/

/-- What holds of the requests of the other end and of the answers to them after a run. -/
structure Replied (events : List (Event η)) : Prop where
  /-- What was received is what arrived, in order. -/
  received : (ran events).received = (arrivals events).map Prod.snd
  /-- The answers that were accepted are one for each request among the arrivals, in order,
  and none for anything else. -/
  answered : responses (ran events).accepted = answers (arrivals events)
  /-- An answer has the id of the request, which is not `null`, and either a result or an
  error. -/
  known : ∀ r, (answerBy (some Session.answer) r).toJson =
    replyJson r (r.method ∈ Session.acknowledgedMethods)
  unknown : ∀ r, (answerBy none r).toJson = replyJson r false
  id : ∀ payload r, request? payload = some r → r.id ≠ .null
  /-- What is written is the first of what was accepted, so the answers are in order there,
  too. -/
  written : ∃ sent, sent <+: (ran events).accepted ∧
    (ran events).stream.written = sent.map Message.frame
  /-- Unless a write fails or the dispatcher is cut off, no answer is lost. -/
  kept : sendsFirst events = true → (ran events).stream.writer ≠ .failed →
    endedBy events ≠ some .cutOff →
    ∃ sent queued, (ran events).stream.written = sent.map Message.frame ∧
      (ran events).stream.outgoing = queued.map Message.frame ∧
      responses sent ++ responses queued ++ responses (ran events).outbound =
        answers (arrivals events)
  /-- Once the client has been closed, the writer writes all of them. -/
  closed : sendsFirst events = true → (ran events).stream.writer ≠ .failed →
    endedBy events ≠ some .cutOff → (ran events).stream.isOpen = false →
    ∃ sent, ((ran events).stream.drain none).written = sent.map Message.frame ∧
      responses sent = answers (arrivals events)

/-- Every request of the other end is answered once, in every run. What the answers are comes from
`responses_run`. That none of them is lost comes from the account of `shipped_run`, in which no
answer is among what was dropped. -/
theorem replied (events : List (Event η)) : Replied events := by
  obtain ⟨hreceived, hanswered⟩ := responses_run events
  -- The answers are on the way: written, with the writer, or still queued. None was dropped,
  -- because the dispatcher sends before it receives and was not cut off.
  have hkept : sendsFirst events = true → (ran events).stream.writer ≠ .failed →
      endedBy events ≠ some .cutOff →
      ∃ sent queued, (ran events).stream.written = sent.map Message.frame ∧
        (ran events).stream.outgoing = queued.map Message.frame ∧
        responses sent ++ responses queued ++ responses (ran events).outbound =
          answers (arrivals events) := by
    intro hfirst hwriter hcut
    obtain ⟨given, hgiven, hcarried⟩ := (shipped_run events).whole
    obtain ⟨sent, queued, rfl, hsent, hqueued⟩ :=
      List.map_eq_append_iff.mp (hcarried.whole hwriter).symm
    refine ⟨sent, queued, hsent.symm, hqueued.symm, ?_⟩
    rw [← hanswered, hgiven, responses_append, responses_append, responses_append,
      responses_dropped hfirst hwriter hcut, List.append_nil]
  refine
    { received := hreceived, answered := hanswered
      known := toJson_answer, unknown := toJson_unknownMethod
      id := fun payload r => id_ne_null, written := wired_run events
      kept := hkept, closed := fun hfirst hwriter hcut hclosed => ?_ }
  obtain ⟨sent, queued, hsent, hqueued, hwhole⟩ := hkept hfirst hwriter hcut
  -- After a close the queue is empty, so all of them have come at least as far as the writer.
  have horderly := orderly_run events
  rw [horderly.outbound_of_closed hclosed] at hwhole
  refine ⟨sent ++ queued, ?_, ?_⟩
  · rw [drain_of_closed hclosed hwriter horderly.tidy, hsent, hqueued, List.map_append]
  · rw [responses_append, ← hwhole]
    exact (List.append_nil _).symm

/-- A client that acknowledges a request, and is closed before the answer is on its way. -/
def acknowledging : List (Event Unit) :=
  [.onRequest Session.answer,
    .deliver (Text.encode (Message.frame
      (.request { id := .string "x", method := "client/registerCapability", params := none }))),
    .receiveNext, .beginClose, .stop, .endClose, .write none, .write none]

/-- A request arrives and the client is closed right after it. The answer is accepted before the
client is closed and written after it. -/
theorem replied_of_acknowledging :
    Replied acknowledging ∧
      ∃ sent, ((ran acknowledging).stream.drain none).written = sent.map Message.frame ∧
        responses sent = [.success (.string "x") .null] := by
  have hreplied := replied acknowledging
  have hanswers : answers (arrivals acknowledging) = [.success (.string "x") .null] := by
    decide +kernel
  refine ⟨hreplied, ?_⟩
  rw [← hanswers]
  exact hreplied.closed (by decide +kernel) (by decide +kernel) (by decide +kernel)
    (by decide +kernel)

end LanguageClient.Rpc
