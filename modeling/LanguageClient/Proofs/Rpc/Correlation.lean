import LanguageClient.Proofs.Rpc.Message
import LanguageClient.Proofs.Rpc.Wire

/-!
# `LanguageClient.Proofs.Rpc.Correlation`: which response ends which request

In a run of a client with fewer than 2^64 calls a call is answered by the response that
has its number as id, and by nothing else (`correlation`). The parts are:

* `exists_answers`: a mailbox is filled in one step of the run, by a response that arrived
  while the call was in the table.
* `eq_of_answers`: there is one such step, since the number leaves the table with it and
  never comes back.

An end that the server decided is the outcome of the response in the mailbox
(`Call.Settled`), so it is decided by that step alone.
-/

set_option autoImplicit false

namespace LanguageClient.Rpc

variable {η : Type}

open Client

/-- Whether the other end decided how a call ended. -/
def isServerDecided : Outcome → Bool
  | .ok _ | .error (.server _) | .error .mismatch | .error .missingResult => true
  | .error .disconnected | .error .timeout | .error .cancelled => false

/-- A call that is answered leaves the table in the same step. The table has each number once, so
taking it out once is enough. -/
theorem notMem_pending_of_answers {c : Client η} (h : c.Sound)
    (hfew : c.calls.length < Nat.pow 2 64) {n : Nat} {r : Response} (ha : c.Answers n r) :
    n ∉ c.receiveNext.pending := by
  obtain ⟨hn, payload, harrives, hparse, hid⟩ := ha
  obtain ⟨framing, incoming, heq⟩ := receiveNext_of_own h hfew harrives hparse hn hid
  rw [heq]
  exact List.Nodup.not_mem_erase h.nodup

/-! ### Runs -/

/-- The state of a client after some events. -/
abbrev ran (events : List (Event η)) : Client η := ({} : Client η).run events

/-- A bound on the calls of a run holds for each run that it begins with. The lemmas about runs ask
for such a bound wherever a run is cut in two. -/
theorem few_of_append {before after : List (Event η)}
    (hfew : (ran (before ++ after)).calls.length < Nat.pow 2 64) :
    (ran before).calls.length < Nat.pow 2 64 := by
  have hlength := length_le_run (ran before) after
  rw [← run_append] at hlength
  exact Nat.lt_of_le_of_lt hlength hfew

/-- A filled mailbox was filled by a response that arrived while the call was in the table. By
induction on the run, from its end: the mailbox was filled before the last step, or that step filled
it, or the call is new and its mailbox is empty. -/
theorem exists_answers (events : List (Event η)) (hfew : (ran events).calls.length < Nat.pow 2 64)
    {n : Nat} {call : Call} {r : Response} (hcall : (ran events).call? n = some call)
    (hfilled : call.mailbox = .filled r) :
    ∃ before after, events = before ++ .receiveNext :: after ∧ (ran before).Answers n r := by
  induction events using List.reverseRecOn generalizing call with
  | nil => exact nomatch hcall
  | append_singleton events e ih =>
    have hbefore := few_of_append hfew
    have hsound := sound_run sound_fresh events hbefore
    rw [ran, run_concat] at hfew hcall
    have heffect := effect_step hsound e hfew
    cases hold : (ran events).call? n with
    | none =>
      -- A call that the last step has made has nothing in its mailbox.
      rw [heffect.mailbox_of_new hsound hold hcall] at hfilled
      exact nomatch hfilled
    | some old =>
      obtain ⟨call', hcall', hturn⟩ := heffect.exists_turn hsound hold
      obtain rfl : call' = call := Option.some.inj (hcall'.symm.trans hcall)
      -- Filled before the last step, or by it.
      rcases hturn.filled r hfilled with hearlier | ⟨rfl, hanswers⟩
      · obtain ⟨before, after, rfl, hanswers⟩ := ih hbefore hold hearlier
        exact ⟨before, after ++ [e], by rw [List.append_assoc, List.cons_append], hanswers⟩
      · rw [(mem_of_call? hold).2] at hanswers
        exact ⟨events, [], rfl, hanswers⟩

/-- A call is answered in one step only: with the first answer its number leaves the table for good,
so no later response finds it there. -/
theorem not_answers_later {before middle after : List (Event η)}
    (hfew : (ran (before ++ .receiveNext :: middle ++ after)).calls.length < Nat.pow 2 64) {n : Nat}
    {r r' : Response} (ha : (ran before).Answers n r) :
    ¬ (ran (before ++ .receiveNext :: middle)).Answers n r' := by
  have hmiddle := few_of_append hfew
  have hbefore := few_of_append hmiddle
  have hsound := sound_run sound_fresh before hbefore
  rw [ran, run_append] at hmiddle
  have hstep := Nat.lt_of_le_of_lt (length_le_run _ middle) hmiddle
  have hgone := notMem_pending_of_answers hsound hbefore ha
  have hle := Nat.le_trans (hsound.pending_le ha.1) (length_le_step (ran before) .receiveNext)
  -- The number leaves the table with the answer, and numbers do not come back.
  have hnever := notMem_pending_run (sound_effect hsound (effect_step hsound _ hstep)) middle
    hmiddle hle hgone
  rintro ⟨hn, -⟩
  rw [ran, run_append] at hn
  exact hnever hn

/-- Two steps of one run that answer the same call are the same step. With this the response that
decides an end is unique in the run. -/
theorem eq_of_answers {before after before' after' : List (Event η)}
    (hfew : (ran (before ++ .receiveNext :: after)).calls.length < Nat.pow 2 64)
    (heq : before ++ .receiveNext :: after = before' ++ .receiveNext :: after') {n : Nat}
    {r r' : Response} (ha : (ran before).Answers n r) (ha' : (ran before').Answers n r') :
    before' = before := by
  -- Two splits of one run: if they differ, one answer comes after the other.
  rcases List.append_eq_append_iff.mp heq with ⟨middle, hbefore, hrest⟩ | ⟨middle, hbefore, hrest⟩
  · cases middle with
    | nil => rw [hbefore, List.append_nil]
    | cons e middle =>
      obtain ⟨rfl, -⟩ := List.cons.inj hrest
      rw [heq, hbefore] at hfew
      rw [hbefore] at ha'
      exact absurd ha' (not_answers_later hfew ha)
  · cases middle with
    | nil => rw [hbefore, List.append_nil]
    | cons e middle =>
      obtain ⟨rfl, -⟩ := List.cons.inj hrest
      rw [hbefore] at hfew ha
      exact absurd ha (not_answers_later hfew ha')

/-- An end that the server decided is the outcome of the response in the mailbox. The other ends go
with a mailbox that was given up or stayed empty, and those are ends that the client decides. -/
theorem filled_of_decided {call : Call} (h : call.Settled) {o : Outcome}
    (ho : call.progress = .ended o) (hdecided : isServerDecided o = true) :
    ∃ r, call.mailbox = .filled r ∧ o = r.outcome call.shape := by
  have hsettled := h o ho
  cases hmailbox : call.mailbox with
  | filled r =>
    rw [hmailbox] at hsettled
    exact ⟨r, rfl, hsettled⟩
  | givenUp =>
    -- Who was given up is told that the call is cancelled, which is no answer of the server.
    rw [hmailbox] at hsettled
    rw [show o = .error .cancelled from hsettled] at hdecided
    exact nomatch hdecided
  | empty =>
    -- With nothing in the mailbox a call can only have failed at once or run out of time.
    rw [hmailbox] at hsettled
    rcases hsettled with rfl | rfl
    · exact nomatch hdecided
    · exact nomatch hdecided

/-- What holds of requests and responses after a run. -/
structure Correlated (events : List (Event η)) : Prop where
  /-- What is on the wire is the first of what was queued. Its requests carry numbers of
  calls, and no two the same. -/
  wire : ∃ sent, sent <+: (ran events).accepted ∧
    (ran events).stream.written = sent.map Message.frame ∧
    (sent.filterMap Message.requestId?).Sublist (ran events).callIds ∧
    (sent.filterMap Message.requestId?).Nodup
  /-- A request that can be sent is sent with the number of its call, which is entered
  into the table. -/
  asked : ∀ before after method params shape,
    events = before ++ .request method params shape :: after →
    (ran before).dispatcher = .running →
    (ran before).step (.request method params shape) =
      (ran before).entering method params shape
  /-- A call ends once. -/
  once : ∀ before after n o, events = before ++ after →
    (ran before).outcome? n = some o → (ran events).outcome? n = some o
  /-- An end that the server decided is the outcome of the one response that arrived while
  the call was in the table. -/
  answered : ∀ n o, (ran events).outcome? n = some o → isServerDecided o = true →
    ∃ before after r call, events = before ++ .receiveNext :: after ∧
      (ran before).Answers n r ∧ (ran before).call? n = some call ∧ o = r.outcome call.shape ∧
      ∀ before' after' r', events = before' ++ .receiveNext :: after' →
        (ran before').Answers n r' → before' = before
  /-- The table has only calls that were made, and that have no answer and no end. -/
  table : ∀ n ∈ (ran events).pending, ∃ call, (ran events).call? n = some call ∧
    call.mailbox = .empty ∧ call.outcome? = none
  /-- A response to nobody in the table changes no call and not the table. -/
  foreign : ∀ payload r, (ran events).Arrives payload →
    Message.parse payload = .ok (.response r) → (∀ n ∈ (ran events).pending, r.id ≠ .nat n) →
    ∃ framing incoming, (ran events).step .receiveNext =
      (ran events).taking framing incoming payload
  /-- A response to a call in the table changes that call only. -/
  own : ∀ payload r n, (ran events).Arrives payload →
    Message.parse payload = .ok (.response r) → n ∈ (ran events).pending → r.id = .nat n →
    ∃ framing incoming, (ran events).step .receiveNext =
      { ((ran events).taking framing incoming payload).update n (Call.fill r) with
        pending := (ran events).pending.erase n }
  /-- An error wins over any result. -/
  error : ∀ (r : Response) e shape, r.error = some e → r.outcome shape = .error (.server e)
  /-- A `null` result and an absent one are the same. -/
  null : ∀ fields, Json.lookup fields "result" = some .null →
    Message.ofJson? (.object (withoutResult fields)) = Message.ofJson? (.object fields)

/-- An end that the server decided comes from one response: one that arrived while the call was in
the table, read as the shape that the caller asked for, and the only response of the run that
answers the call. -/
theorem answered_run (events : List (Event η)) (hfew : (ran events).calls.length < Nat.pow 2 64)
    {n : Nat} {o : Outcome} (ho : (ran events).outcome? n = some o)
    (hdecided : isServerDecided o = true) :
    ∃ before after r call, events = before ++ .receiveNext :: after ∧
      (ran before).Answers n r ∧ (ran before).call? n = some call ∧ o = r.outcome call.shape ∧
      ∀ before' after' r', events = before' ++ .receiveNext :: after' →
        (ran before').Answers n r' → before' = before := by
  have hsound := sound_run sound_fresh events hfew
  obtain ⟨last, hlast, hend⟩ := Option.bind_eq_some_iff.mp ho
  have hsettled := hsound.settled last (mem_of_call? hlast).1
  obtain ⟨r, hfilled, houtcome⟩ :=
    filled_of_decided hsettled (Call.outcome?_eq_some.mp hend) hdecided
  obtain ⟨before, after, rfl, hanswers⟩ := exists_answers events hfew hlast hfilled
  have hbefore := sound_run sound_fresh before (few_of_append hfew)
  -- The call had its shape when the response arrived.
  obtain ⟨call, hmem, hnumber⟩ := hbefore.known n hanswers.1
  have hcall : (ran before).call? n = some call := hnumber ▸ hbefore.numbers.call?_of_mem hmem
  have hwhole : ran (before ++ .receiveNext :: after) =
      (ran before).run (.receiveNext :: after) := run_append _ _ _
  obtain ⟨call', hcall', hlater⟩ :=
    later_run hbefore (.receiveNext :: after) (hwhole ▸ hfew) hcall
  obtain rfl : call' = last := by
    rw [← hwhole, hlast] at hcall'
    exact (Option.some.inj hcall').symm
  refine ⟨before, after, r, call, rfl, hanswers, hcall, ?_, ?_⟩
  · rw [houtcome, hlater.shape]
  · intro before' after' r' heq hanswers'
    exact eq_of_answers hfew heq hanswers hanswers'

/-- Which response ends which request, for every run with fewer than 2^64 calls. The bound is what
the ids are made for: up to it, no two calls have the same id. What the run does with a single
response is said by `receiveNext_of_foreign` and `receiveNext_of_own`, so that only the clauses
about the run as a whole are left here. -/
theorem correlation (events : List (Event η)) (h : events.countP Event.isRequest < Nat.pow 2 64) :
    Correlated events := by
  have hfew : (ran events).calls.length < Nat.pow 2 64 := by
    rw [ran, length_run]
    show 0 + events.countP Event.isRequest < Nat.pow 2 64
    omega
  have hsound := sound_run sound_fresh events hfew
  refine
    { wire := ?_, asked := ?_, once := ?_, table := ?_
      answered := fun n o => answered_run events hfew
      foreign := fun payload r => receiveNext_of_foreign hsound hfew
      own := fun payload r n ha hp hn hid => receiveNext_of_own hsound hfew ha hp hn hid
      error := fun r e shape h => outcome_of_error h shape
      null := fun fields => ofJson?_null_result }
  · -- What is written is the front of what was queued, and there every request has its own number.
    obtain ⟨sent, hfront, hwritten⟩ := wired_run events
    have hids := (hfront.sublist.filterMap Message.requestId?).trans (requestIds_run events hfew)
    exact ⟨sent, hfront, hwritten, hids, (nodup_callIds _).sublist hids⟩
  · rintro before after method params shape rfl hrunning
    have hsplit : before ++ .request method params shape :: after =
        before ++ [.request method params shape] ++ after := List.append_cons _ _ _
    rw [hsplit] at hfew
    have hnext := few_of_append hfew
    have hbefore := sound_run sound_fresh before (few_of_append hnext)
    rw [ran, run_concat] at hnext
    have hlength : (ran before).calls.length + 1 < Nat.pow 2 64 :=
      length_request (ran before) method params shape ▸ hnext
    exact congrArg Prod.snd (request_of_running hbefore hlength hrunning method params shape)
  · -- Once there is an end, `later_run` keeps it.
    rintro before after n o rfl ho
    obtain ⟨call, hcall, hend⟩ := Option.bind_eq_some_iff.mp ho
    rw [ran, run_append] at hfew ⊢
    have hbefore := sound_run sound_fresh before (few_of_append (run_append _ before after ▸ hfew))
    obtain ⟨call', hcall', hlater⟩ := later_run hbefore after hfew hcall
    have hend' := hlater.progress o (Call.outcome?_eq_some.mp hend)
    rw [outcome?, hcall', Option.bind_some, Call.outcome?_eq_some.mpr hend']
  · -- What waits in the table has neither answer nor end, since the client is sound.
    intro n hn
    obtain ⟨call, hmem, rfl⟩ := hsound.known n hn
    exact ⟨call, hsound.numbers.call?_of_mem hmem, hsound.waits call hmem hn⟩

/-- Two calls, of which the first runs out of time and the second is answered twice. -/
theorem correlation_of_two_calls :
    Correlated [.request "a" none .any, .request "b" none .any, .sendNext, .sendNext, .expire 1,
      .deliver (Text.encode (Framing.frame (Response.success (.nat 2) .null).toJson.print)),
      .receiveNext, .resume 2,
      .deliver (Text.encode (Framing.frame (Response.success (.nat 2) .null).toJson.print)),
      .receiveNext, (.resume 2 : Event Unit)] :=
  correlation _ (by decide)

end LanguageClient.Rpc
