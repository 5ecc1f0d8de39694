import LanguageClient.Proofs.Rpc.Table

/-!
# `LanguageClient.Proofs.Rpc.Effect`: what a step does to the calls

Seven things can happen to the calls of a client and to its table (`Effect`).
`effect_step` is the one place that looks at every event; what follows is by cases on
the effect, and from there by induction on the run.

* `sound_run`: every run keeps `Client.Sound`.
* `later_run`: a call goes on as `Call.Later` says.
* `notMem_pending_run`: a number that has left the table never comes back.
-/

set_option autoImplicit false

namespace LanguageClient.Rpc

variable {η : Type}

open Client

/-- What one step does to the calls and to the table. -/
inductive Effect (c : Client η) (e : Event η) (after : Client η) : Prop where
  | keep (calls : after.calls = c.calls) (pending : after.pending = c.pending)
  /-- A call fails at once. -/
  | refuse (shape : Shape)
      (calls : after.calls = c.calls ++
        [⟨c.calls.length + 1, shape, .empty, .ended (.error .disconnected)⟩])
      (pending : after.pending = c.pending)
  /-- A call is entered into the table. -/
  | enter (shape : Shape)
      (calls : after.calls = c.calls ++ [⟨c.calls.length + 1, shape, .empty, .waiting⟩])
      (pending : after.pending = c.pending ++ [c.calls.length + 1])
  /-- A caller looks into the mailbox, or does so for the last time. -/
  | look (number : Nat) (f : Call → Call) (what : f = Call.resume ∨ f = Call.expire)
      (calls : after.calls = (c.update number f).calls)
      (pending : after.pending = c.pending.erase number ∨
        after.pending = c.pending ∧ (c.update number f).outcome? number ≠ some (.error .timeout))
  /-- A caller goes away. -/
  | leave (number : Nat) (calls : after.calls = (c.update number Call.abandon).calls)
      (pending : after.pending = c.pending)
  /-- All calls in the table are cancelled. -/
  | cancel (calls : after.calls = (c.giveUp c.pending).calls) (pending : after.pending = [])
  /-- A call in the table is answered. -/
  | answer (number : Nat) (r : Response) (event : e = .receiveNext) (answers : c.Answers number r)
      (calls : after.calls = (c.update number (Call.fill r)).calls)
      (pending : after.pending = c.pending.erase number)

/-! ### Every event has an effect -/

/-- A change made to one call leaves the number of calls as it was. The lemmas of this kind below
say the same of every part of a step, so that `length_step` can count. -/
theorem length_update (c : Client η) (number : Nat) (f : Call → Call) :
    (c.update number f).calls.length = c.calls.length := List.length_map _

/-- Giving calls up marks them and removes none. -/
theorem length_giveUp (c : Client η) (numbers : List Nat) :
    (c.giveUp numbers).calls.length = c.calls.length := List.length_map _

/-- The end of the dispatcher gives up what is in the table and forgets no call. -/
theorem length_endDispatch (c : Client η) : c.endDispatch.calls.length = c.calls.length :=
  length_giveUp c c.pending

/-- A look into a mailbox settles table and calls, and makes no call. -/
theorem length_look (c : Client η) (number : Nat) (f : Call → Call) :
    (c.look number f).calls.length = c.calls.length := by
  obtain ⟨calls, pending, hlength, heq⟩ := c.look_eq number f
  rw [heq, hlength]

/-- A payload that is taken makes no call, whichever kind of message it is. So calls are counted by
the requests of the owner alone. -/
theorem length_accept (c : Client η) (payload : List Char) :
    (c.accept payload).calls.length = c.calls.length := by
  unfold accept
  dsimp only
  split
  · unfold acceptResponse
    split
    · exact length_update _ _ _
    · rfl
  · unfold acceptNotification
    split <;> rfl
  · unfold acceptRequest
    split <;> rfl
  · rfl

/-- A look for the next payload makes no call, whether it takes one, finds none or ends the
dispatcher. -/
theorem length_receiveNext (c : Client η) : c.receiveNext.calls.length = c.calls.length := by
  rcases c.receiveNext_cases with ⟨payload, hpayload⟩ |
    ⟨framing, incoming, connected, notices, heq | heq⟩
  · obtain ⟨framing, incoming, heq⟩ := receiveNext_of_arrives hpayload
    rw [heq, length_accept]
  · rw [heq]
  · rw [heq, length_endDispatch]

/-- A request makes one call, also if it fails at once: the caller is owed an end either way. -/
theorem length_request (c : Client η) (method : String) (params : Option Json) (shape : Shape) :
    (c.request method params shape).2.calls.length = c.calls.length + 1 := by
  unfold request
  dsimp only
  split
  · rw [List.length_append, length_giveUp, List.length_singleton]
  · rw [queue, List.length_append, length_giveUp, List.length_singleton]

/-- Whether an event makes a call. -/
def Event.isRequest : Event η → Bool
  | .request _ _ _ => true
  | _ => false

/-- Calls are counted and never forgotten: only a request makes one, and it makes exactly one. So
the number of calls is what the counter has given out. -/
theorem length_step (c : Client η) (e : Event η) :
    (c.step e).calls.length = c.calls.length + if e.isRequest then 1 else 0 := by
  cases e with
  | request method params shape => exact length_request c method params shape
  | notify method params =>
    by_cases hended : c.dispatcher = .ended
    · simp only [step, notify, if_pos hended]
      rfl
    · simp only [step, notify, if_neg hended]
      rfl
  | resume number => exact length_look c number Call.resume
  | expire number => exact length_look c number Call.expire
  | abandon number => exact length_update c number Call.abandon
  | cancelAll => exact length_giveUp c c.pending
  | onNotification => rfl
  | onRequest => rfl
  | sendNext =>
    -- Sending can end the dispatcher, which gives calls up but keeps them.
    show c.sendNext.calls.length = c.calls.length
    unfold sendNext
    split
    · split
      · rfl
      · exact length_endDispatch _
    · rfl
  | receiveNext => exact length_receiveNext c
  | stop =>
    show c.stop.calls.length = c.calls.length
    unfold stop
    split
    · exact length_endDispatch _
    · rfl
  | beginClose => exact length_giveUp c c.pending
  | endClose =>
    show (if c.stopping ∧ c.dispatcher = .ended then c.endClose else c).calls.length = _
    split <;> rfl
  | forceClose =>
    show (if c.stopping then c.forceClose else c).calls.length = c.calls.length
    unfold forceClose
    split
    · split <;> rfl
    · rfl
  | drop => rfl
  | write => rfl
  | deliver => rfl
  | finish => rfl
  | breakOff => rfl

/-- The weak form of `length_step`: a bound on the calls after a step is one on those before. -/
theorem length_le_step (c : Client η) (e : Event η) :
    c.calls.length ≤ (c.step e).calls.length := by
  rw [length_step]
  exact Nat.le_add_right _ _

/-- Only a response concerns the calls. A request or a notification of the other end goes to its
handler, and an unreadable payload to nobody. -/
theorem accept_of_no_response {payload : List Char}
    (h : ∀ r, Message.parse payload ≠ .ok (.response r)) (c : Client η) :
    (c.accept payload).calls = c.calls ∧ (c.accept payload).pending = c.pending := by
  unfold accept
  dsimp only
  split
  · rename_i r hparse
    exact absurd hparse (h r)
  · unfold acceptNotification
    split <;> exact ⟨rfl, rfl⟩
  · unfold acceptRequest
    split <;> exact ⟨rfl, rfl⟩
  · exact ⟨rfl, rfl⟩

/-- What a look for the next payload does to the calls: it answers the one call that a response
names, it cancels all if the dispatcher ends with it, and otherwise does nothing. The bound makes
numbers ids, so a response names one call at most. -/
theorem effect_receiveNext {c : Client η} (h : c.Sound)
    (hfew : c.receiveNext.calls.length < Nat.pow 2 64) :
    Effect c .receiveNext c.receiveNext := by
  rw [length_receiveNext] at hfew
  rcases c.receiveNext_cases with ⟨payload, hpayload⟩ |
    ⟨framing, incoming, connected, notices, heq | heq⟩
  · -- All that is not a response is handled alike, so it is said once.
    have other : (∀ r, Message.parse payload ≠ .ok (.response r)) →
        Effect c .receiveNext c.receiveNext := by
      intro hnot
      obtain ⟨framing, incoming, heq⟩ := receiveNext_of_arrives hpayload
      rw [heq]
      obtain ⟨hcalls, hpending⟩ := accept_of_no_response hnot
        ({ c with framing, stream := { c.stream with incoming } } : Client η)
      exact .keep hcalls hpending
    cases hparse : Message.parse payload with
    | error e => exact other fun r heq => nomatch hparse.symm.trans heq
    | ok m =>
      cases m with
      | request => exact other fun r heq => nomatch hparse.symm.trans heq
      | notification => exact other fun r heq => nomatch hparse.symm.trans heq
      | response r =>
        by_cases hid : ∃ number ∈ c.pending, r.id = .nat number
        · obtain ⟨number, hmem, hid⟩ := hid
          obtain ⟨framing, incoming, heq⟩ := receiveNext_of_own h hfew hpayload hparse hmem hid
          rw [heq]
          exact .answer number r rfl ⟨hmem, payload, hpayload, hparse, hid⟩ rfl rfl
        · -- The id belongs to no call in the table: it was never given out, or its call has left.
          have hnone : ∀ n ∈ c.pending, r.id ≠ .nat n := fun n hn heq => hid ⟨n, hn, heq⟩
          obtain ⟨framing, incoming, heq⟩ := receiveNext_of_foreign h hfew hpayload hparse hnone
          rw [heq]
          exact .keep rfl rfl
  · -- No payload has arrived, and the dispatcher goes on.
    rw [heq]
    exact .keep rfl rfl
  · -- The dispatcher ends, and all who wait are cancelled with it.
    rw [heq]
    exact .cancel rfl (pending_giveUp_pending _)

/-- A request fails at once if the dispatcher has ended, and enters its call into the table
otherwise. The bound rules out that its id is taken. -/
theorem effect_request {c : Client η} (h : c.Sound) (method : String) (params : Option Json)
    (shape : Shape) (hfew : (c.request method params shape).2.calls.length < Nat.pow 2 64) :
    Effect c (.request method params shape) (c.request method params shape).2 := by
  rw [length_request] at hfew
  by_cases hended : c.dispatcher = .ended
  · rw [request_of_ended h hfew hended]
    exact .refuse shape rfl rfl
  · rw [request_of_running h hfew (running_of_ne_ended hended)]
    exact .enter shape rfl rfl

/-- A caller who looks into the mailbox concerns nobody else, as long as numbers are
ids. -/
theorem effect_look {c : Client η} {e : Event η} (h : c.Sound)
    (hfew : c.calls.length < Nat.pow 2 64) (number : Nat) {f : Call → Call}
    (hf : f = Call.resume ∨ f = Call.expire) :
    Effect c e (c.look number f) := by
  -- Who has an end is a call of the client, so the number is its id.
  have halone : ∀ o, (c.update number f).outcome? number = some o → c.sharing number = [] := by
    intro o ho
    obtain ⟨call, hcall, -⟩ := Option.bind_eq_some_iff.mp ho
    obtain ⟨hmem, hnumber⟩ := mem_of_call? hcall
    obtain ⟨old, hold, heq⟩ := List.mem_map.mp hmem
    have hsame : old.number = number := by
      by_cases hchanged : old.number = number
      · exact hchanged
      · rw [← hnumber, ← heq, if_neg hchanged]
    exact sharing_eq_nil h hfew (hsame ▸ Nat.lt_of_le_of_lt (h.numbers.number_le hold) hfew)
  have herase : c.sharing number = [] →
      Effect c e ({ c.update number f with pending := c.pending.erase number }.giveUp
        ((c.update number f).sharing number)) := by
    intro hnone
    rw [show (c.update number f).sharing number = [] from hnone, giveUp_nil]
    exact .look number f hf rfl (.inl rfl)
  unfold look settleTable
  split
  · split
    · rename_i ho
      exact herase (halone _ ho)
    · rename_i ho
      exact herase (halone _ ho)
    · rename_i hnot _
      exact .look number f hf rfl (.inr ⟨rfl, hnot⟩)
  · exact .keep rfl rfl

/-- Every event has one of the effects, as long as numbers are ids. This is the only proof that
looks at every event: what is said about calls further on goes by cases on the effect. -/
theorem effect_step {c : Client η} (h : c.Sound) (e : Event η)
    (hfew : (c.step e).calls.length < Nat.pow 2 64) : Effect c e (c.step e) := by
  cases e with
  | request method params shape => exact effect_request h method params shape hfew
  | notify method params =>
    -- A notification expects no answer, so it leaves calls and table alone.
    by_cases hended : c.dispatcher = .ended
    · simp only [step, notify, if_pos hended]
      exact .keep rfl rfl
    · simp only [step, notify, if_neg hended]
      exact .keep rfl rfl
  | resume number =>
    exact effect_look h (Nat.lt_of_le_of_lt (length_le_step c _) hfew) number (.inl rfl)
  | expire number =>
    exact effect_look h (Nat.lt_of_le_of_lt (length_le_step c _) hfew) number (.inr rfl)
  | abandon number => exact .leave number rfl rfl
  | cancelAll => exact .cancel rfl (pending_giveUp_pending c)
  | onNotification => exact .keep rfl rfl
  | onRequest => exact .keep rfl rfl
  | sendNext =>
    -- A stream that refuses the message ends the dispatcher, and all calls with it.
    show Effect c _ c.sendNext
    unfold sendNext
    split
    · split
      · exact .keep rfl rfl
      · exact .cancel rfl (pending_giveUp_pending _)
    · exact .keep rfl rfl
  | receiveNext => exact effect_receiveNext h hfew
  | stop =>
    show Effect c _ c.stop
    unfold stop
    split
    · exact .cancel rfl (pending_giveUp_pending _)
    · exact .keep rfl rfl
  | beginClose => exact .cancel rfl (pending_giveUp_pending c)
  | endClose =>
    -- By now the dispatcher has ended and the table is empty, so closing has nothing to cancel.
    show Effect c _ (if c.stopping ∧ c.dispatcher = .ended then c.endClose else c)
    split
    · exact .keep rfl rfl
    · exact .keep rfl rfl
  | forceClose =>
    show Effect c _ (if c.stopping then c.forceClose else c)
    unfold forceClose
    split
    · split
      · exact .keep rfl rfl
      · exact .keep rfl rfl
    · exact .keep rfl rfl
  | drop => exact .keep rfl rfl
  | write => exact .keep rfl rfl
  | deliver => exact .keep rfl rfl
  | finish => exact .keep rfl rfl
  | breakOff => exact .keep rfl rfl

/-! ### What an effect does to one call -/

/-- What a step makes of a call. -/
structure Turn (c : Client η) (e : Event η) (after : Client η) (call call' : Call) : Prop where
  later : call.Later call'
  settled : call'.Settled
  waits : call.number ∈ after.pending → call'.mailbox = .empty ∧ call'.outcome? = none
  /-- Only a response that reaches the call fills its mailbox. -/
  filled : ∀ r, call'.mailbox = .filled r →
    call.mailbox = .filled r ∨ e = .receiveNext ∧ c.Answers call.number r

/-- A call that the step leaves alone takes the turn that changes nothing. The table may lose
numbers in the step but must not gain this one: a call with an end is not to be entered again. -/
theorem Turn.same {c after : Client η} {e : Event η} (h : c.Sound) {call : Call}
    (hmem : call ∈ c.calls) (hpending : call.number ∈ after.pending → call.number ∈ c.pending) :
    Turn c e after call call :=
  ⟨.refl call, h.settled call hmem, fun hn => h.waits call hmem (hpending hn), fun _ hr => .inl hr⟩

/-- A call that only its caller touches keeps its mailbox, so `filled` needs no response. -/
theorem Turn.of_caller {c after : Client η} {e : Event η} {call call' : Call}
    (hlater : call.Later call') (hmailbox : call'.mailbox = call.mailbox)
    (hsettled : call'.Settled)
    (hwaits : call.number ∈ after.pending → call.mailbox = .empty ∧ call'.outcome? = none) :
    Turn c e after call call' :=
  ⟨hlater, hsettled, fun hn => ⟨hmailbox.trans (hwaits hn).1, (hwaits hn).2⟩,
    fun _ hr => .inl (hmailbox ▸ hr)⟩

/-- A caller who looks into the mailbox leaves it, and an end that comes without a
response takes the call out of the table. -/
theorem turn_of_look {c after : Client η} {e : Event η} (h : c.Sound) {call : Call}
    (hmem : call ∈ c.calls) {f : Call → Call} (hf : f = Call.resume ∨ f = Call.expire)
    (hpending : after.pending = c.pending.erase call.number ∨ after.pending = c.pending ∧
      (c.update call.number f).outcome? call.number ≠ some (.error .timeout)) :
    Turn c e after call (f call) := by
  have hlater : ∀ call : Call, call.Later (f call) := by
    rcases hf with rfl | rfl
    · exact Call.later_resume
    · exact Call.later_expire
  have hmailbox : (f call).mailbox = call.mailbox := by
    rcases hf with rfl | rfl
    · exact call.mailbox_resume
    · exact call.mailbox_expire
  have hsettled : (f call).Settled := by
    rcases hf with rfl | rfl
    · exact Call.settled_resume (h.settled call hmem)
    · exact Call.settled_expire (h.settled call hmem)
  have hopen : call.mailbox = .empty → call.outcome? = none →
      (f call).outcome? = none ∨ (f call).outcome? = some (.error .timeout) := by
    intro hempty hnone
    rcases hf with rfl | rfl
    · exact .inl (by rw [Call.resume_of_empty hempty, hnone])
    · exact Call.outcome?_expire hempty hnone
  -- A call that is in the table after the look cannot have run out of time by it.
  refine .of_caller (hlater call) hmailbox hsettled fun hn => ?_
  rcases hpending with herase | ⟨hkeep, hout⟩
  · rw [herase] at hn
    exact absurd hn (List.Nodup.not_mem_erase h.nodup)
  · rw [hkeep] at hn
    obtain ⟨hempty, hnone⟩ := h.waits call hmem hn
    refine ⟨hempty, (hopen hempty hnone).resolve_right fun htimeout => hout ?_⟩
    rw [outcome?, h.numbers.call?_update (fun call => (hlater call).number) hmem, Option.bind_some,
      htimeout]

/-- A step changes each call for itself and perhaps takes some out of the table, or it adds one call
behind the others. In the first form every call has its `Turn`; in the second the new call is all
there is to look at. Whatever has to be shown of a step is shown for these two. -/
theorem Effect.calls_cases {c after : Client η} {e : Event η} (h : c.Sound)
    (he : Effect c e after) :
    (∃ g, after.calls = c.calls.map g ∧ after.pending.Sublist c.pending ∧
      ∀ call ∈ c.calls, Turn c e after call (g call)) ∨
    ∃ fresh : Call, after.calls = c.calls ++ [fresh] ∧ fresh.number = c.calls.length + 1 ∧
      fresh.mailbox = .empty ∧ fresh.Settled ∧
      (after.pending = c.pending ∨
        fresh.outcome? = none ∧ after.pending = c.pending ++ [fresh.number]) := by
  cases he with
  | keep calls pending =>
    refine .inl ⟨id, by rw [calls, List.map_id], pending ▸ List.Sublist.refl _, ?_⟩
    exact fun call hmem => .same h hmem fun hn => pending ▸ hn
  | refuse shape calls pending =>
    -- The new call has its end already, and it is no end that needs a response.
    refine .inr ⟨_, calls, rfl, rfl, ?_, .inl pending⟩
    intro o ho
    cases ho
    exact .inr rfl
  | enter shape calls pending =>
    -- The new call is open and stands last in the table.
    exact .inr ⟨_, calls, rfl, rfl, Call.settled_of_open rfl, .inr ⟨rfl, pending⟩⟩
  | look number f what calls pending =>
    -- Only the caller who looks is concerned.
    have hsublist : after.pending.Sublist c.pending := by
      rcases pending with pending | ⟨pending, -⟩
      · exact pending ▸ List.erase_sublist
      · exact pending ▸ List.Sublist.refl _
    refine .inl ⟨_, calls, hsublist, fun call hmem => ?_⟩
    by_cases hnumber : call.number = number
    · subst hnumber
      rw [if_pos rfl]
      exact turn_of_look h hmem what pending
    · rw [if_neg hnumber]
      exact .same h hmem fun hn => hsublist.subset hn
  | leave number calls pending =>
    -- The table is not told, so the number of the one who left may stay in it. That is no harm
    -- here: the call has no end and an empty mailbox, as `waits` asks.
    refine .inl ⟨_, calls, pending ▸ List.Sublist.refl _, fun call hmem => ?_⟩
    split
    · refine .of_caller call.later_abandon call.mailbox_abandon
        (Call.settled_abandon (h.settled call hmem)) fun hn => ?_
      obtain ⟨hempty, hnone⟩ := h.waits call hmem (pending ▸ hn)
      exact ⟨hempty, Call.outcome?_abandon hnone⟩
    · exact .same h hmem fun hn => pending ▸ hn
  | cancel calls pending =>
    refine .inl ⟨_, calls, pending ▸ List.nil_sublist _, fun call hmem => ?_⟩
    have hnone : call.number ∉ after.pending := pending ▸ List.not_mem_nil
    -- Those in the table have no end yet, so they may be given up.
    split
    · rename_i hn
      exact ⟨call.later_giveUp, Call.settled_giveUp (h.waits call hmem hn).2,
        fun hn' => absurd hn' hnone, fun r hr => .inl (Call.filled_of_giveUp hr)⟩
    · exact .same h hmem fun hn => absurd hn hnone
  | answer number r event answers calls pending =>
    -- The call that is answered leaves the table and gets the response. For all others nothing
    -- changes but that the table is shorter.
    refine .inl ⟨_, calls, pending ▸ List.erase_sublist, fun call hmem => ?_⟩
    split
    · rename_i hnumber
      subst hnumber
      refine ⟨call.later_fill r, Call.settled_fill (h.settled call hmem) r, fun hn => ?_,
        fun r' hr' => ?_⟩
      · -- The table holds the number once, so it is gone now.
        rw [pending] at hn
        exact absurd hn (List.Nodup.not_mem_erase h.nodup)
      · rcases Call.filled_of_fill hr' with hbefore | rfl
        · exact .inl hbefore
        · exact .inr ⟨event, answers⟩
    · refine .same h hmem fun hn => ?_
      rw [pending] at hn
      exact List.mem_of_mem_erase hn

/-! ### Steps -/

/-- If a step changes each call for itself and the table only gets shorter, the client stays sound.
All clauses come from the turns of the calls, since no call comes or goes. -/
theorem sound_of_turns {c after : Client η} {e : Event η} (h : c.Sound) {g : Call → Call}
    (hcalls : after.calls = c.calls.map g) (hpending : after.pending.Sublist c.pending)
    (hturn : ∀ call ∈ c.calls, Turn c e after call (g call)) : after.Sound := by
  have himage : ∀ call' ∈ after.calls, ∃ call ∈ c.calls, g call = call' := by
    intro call' hmem'
    rw [hcalls] at hmem'
    exact List.mem_map.mp hmem'
  refine ⟨?_, h.nodup.sublist hpending, ?_, ?_, ?_⟩
  · -- Numbers stay with their calls.
    exact h.numbers.of_map hcalls fun call hmem => (hturn call hmem).later.number
  · -- A number in the table is the number of a call that was there before.
    intro n hn
    obtain ⟨call, hmem, hnumber⟩ := h.known n (hpending.subset hn)
    rw [hcalls]
    exact ⟨g call, List.mem_map_of_mem hmem, (hturn call hmem).later.number.trans hnumber⟩
  · intro call' hmem' hn
    obtain ⟨call, hmem, rfl⟩ := himage call' hmem'
    exact (hturn call hmem).waits ((hturn call hmem).later.number ▸ hn)
  · intro call' hmem'
    obtain ⟨call, hmem, rfl⟩ := himage call' hmem'
    exact (hturn call hmem).settled

/-- If a step adds a call with the next number, the client stays sound, whether the call is entered
into the table or has its end already. -/
theorem sound_of_fresh {c after : Client η} (h : c.Sound) {fresh : Call}
    (hcalls : after.calls = c.calls ++ [fresh]) (hnumber : fresh.number = c.calls.length + 1)
    (hempty : fresh.mailbox = .empty) (hsettled : fresh.Settled)
    (hpending : after.pending = c.pending ∨
      fresh.outcome? = none ∧ after.pending = c.pending ++ [fresh.number]) : after.Sound := by
  -- The table has no number beyond the number of calls.
  have hnew : fresh.number ∉ c.pending := by
    intro hn
    have hle := h.pending_le hn
    omega
  have hmember : ∀ n ∈ after.pending, n ∈ c.pending ∨ n = fresh.number := by
    intro n hn
    rcases hpending with hpending | ⟨-, hpending⟩
    · exact .inl (hpending ▸ hn)
    · rw [hpending] at hn
      exact (List.mem_append.mp hn).imp_right List.mem_singleton.mp
  refine ⟨?_, ?_, ?_, ?_, ?_⟩
  · exact h.numbers.of_concat hcalls hnumber
  · -- The table stays without repetition, since the new number is not in it.
    rcases hpending with hpending | ⟨-, hpending⟩
    · rw [hpending]
      exact h.nodup
    · rw [hpending]
      refine List.nodup_append.mpr ⟨h.nodup, List.pairwise_singleton _ _, ?_⟩
      rintro n hn _ hfresh rfl
      exact hnew (List.mem_singleton.mp hfresh ▸ hn)
  · intro n hn
    rw [hcalls]
    rcases hmember n hn with hn | rfl
    · obtain ⟨call, hmem, hcall⟩ := h.known n hn
      exact ⟨call, List.mem_append_left _ hmem, hcall⟩
    · exact ⟨fresh, List.mem_append_right _ (List.mem_singleton.mpr rfl), rfl⟩
  · -- A call that was there is in the new table only if it was in the old one.
    intro call hmem hn
    rw [hcalls] at hmem
    rcases List.mem_append.mp hmem with hmem | hmem
    · have hle := h.numbers.number_le hmem
      exact h.waits call hmem ((hmember _ hn).resolve_right fun heq => by omega)
    · obtain rfl := List.mem_singleton.mp hmem
      rcases hpending with hpending | ⟨hnone, -⟩
      · exact absurd (hpending ▸ hn) hnew
      · exact ⟨hempty, hnone⟩
  · intro call hmem
    rw [hcalls] at hmem
    rcases List.mem_append.mp hmem with hmem | hmem
    · exact h.settled call hmem
    · rw [List.mem_singleton.mp hmem]
      exact hsettled

/-- An effect keeps the client sound: it changes the calls one by one or adds one. -/
theorem sound_effect {c after : Client η} {e : Event η} (h : c.Sound) (he : Effect c e after) :
    after.Sound := by
  rcases he.calls_cases h with ⟨g, hcalls, hpending, hturn⟩ |
    ⟨fresh, hcalls, hnumber, hempty, hsettled, hpending⟩
  · exact sound_of_turns h hcalls hpending hturn
  · exact sound_of_fresh h hcalls hnumber hempty hsettled hpending

/-- A number enters the table only as a new one. So a number that has left the table stays out of
it, which is what makes an answer final. -/
theorem Effect.pending_subset {c after : Client η} {e : Event η} (h : c.Sound)
    (he : Effect c e after) : ∀ n ∈ after.pending, n ∈ c.pending ∨ n = c.calls.length + 1 := by
  intro n hn
  rcases he.calls_cases h with ⟨-, -, hpending, -⟩ |
    ⟨fresh, -, hnumber, -, -, hpending | ⟨-, hpending⟩⟩
  · exact .inl (hpending.subset hn)
  · exact .inl (hpending ▸ hn)
  · rw [hpending] at hn
    rcases List.mem_append.mp hn with hn | hn
    · exact .inl hn
    · exact .inr (hnumber ▸ List.mem_singleton.mp hn)

/-- A call that is there goes on under its number: it is found again after the step, and what
happened to it is its `Turn`. Induction on a run follows a call by this. -/
theorem Effect.exists_turn {c after : Client η} {e : Event η} (h : c.Sound)
    (he : Effect c e after) {n : Nat} {call : Call} (hcall : c.call? n = some call) :
    ∃ call', after.call? n = some call' ∧ Turn c e after call call' := by
  obtain ⟨hmem, hn⟩ := mem_of_call? hcall
  have hfind : c.calls.find? (fun call => call.number = n) = some call := hcall
  -- Either each call is changed for itself, or a new one is put behind them.
  rcases he.calls_cases h with ⟨g, hcalls, -, hturn⟩ | ⟨fresh, hcalls, -⟩
  · refine ⟨g call, ?_, hturn call hmem⟩
    rw [call?, hcalls, find?_map_number fun call hmem => (hturn call hmem).later.number, hfind]
    rfl
  · refine ⟨call, ?_, .same h hmem fun hpending => ?_⟩
    · rw [call?, hcalls, List.find?_append, hfind]
      rfl
    · -- The new call has a larger number, so an entry with this one is an old entry.
      have hle := h.numbers.number_le hmem
      exact (he.pending_subset h _ hpending).resolve_right fun heq => by omega

/-- A call that is new has an empty mailbox. So a filled mailbox belongs to a call that was there
before, or was filled by this very step. -/
theorem Effect.mailbox_of_new {c after : Client η} {e : Event η} (h : c.Sound)
    (he : Effect c e after) {n : Nat} {call : Call} (hnone : c.call? n = none)
    (hcall : after.call? n = some call) : call.mailbox = .empty := by
  have hfind : c.calls.find? (fun call => call.number = n) = none := hnone
  rcases he.calls_cases h with ⟨g, hcalls, -, hturn⟩ | ⟨fresh, hcalls, -, hempty, -⟩
  · rw [call?, hcalls, find?_map_number fun call hmem => (hturn call hmem).later.number,
      hfind] at hcall
    cases hcall
  · rw [call?, hcalls, List.find?_append, hfind, Option.none_or] at hcall
    rw [List.mem_singleton.mp (List.mem_of_find?_eq_some hcall)]
    exact hempty

/-! ### Runs -/

/-- A run with one event more is a step after it. Inductions on runs take the last event, since what
is said of a run is about its state. -/
theorem run_concat (c : Client η) (events : List (Event η)) (e : Event η) :
    c.run (events ++ [e]) = (c.run events).step e := by
  rw [run, List.foldl_append]
  rfl

/-- A run goes on from the state in which its first part ended. -/
theorem run_append (c : Client η) (before after : List (Event η)) :
    c.run (before ++ after) = (c.run before).run after :=
  List.foldl_append

/-- There are as many calls as there were requests. With it, a bound on the requests of a run
becomes a bound on its calls, below which numbers are ids. -/
theorem length_run (c : Client η) (events : List (Event η)) :
    (c.run events).calls.length = c.calls.length + events.countP Event.isRequest := by
  induction events generalizing c with
  | nil => rfl
  | cons e events ih =>
    show ((c.step e).run events).calls.length = _
    rw [ih, length_step, List.countP_cons]
    omega

/-- The weak form of `length_run`: if there are few calls after a run, there were few before. -/
theorem length_le_run (c : Client η) (events : List (Event η)) :
    c.calls.length ≤ (c.run events).calls.length := by
  rw [length_run]
  exact Nat.le_add_right _ _

/-- A fresh client is sound. -/
theorem sound_fresh : ({} : Client η).Sound :=
  ⟨rfl, List.nodup_nil, nofun, nofun, nofun⟩

/-- Every run keeps what holds between two steps. The bound is on the calls at the end of the run,
and by `length_le_step` it holds at each step before. -/
theorem sound_run {c : Client η} (h : c.Sound) (events : List (Event η))
    (hfew : (c.run events).calls.length < Nat.pow 2 64) : (c.run events).Sound := by
  induction events generalizing c with
  | nil => exact h
  | cons e events ih =>
    have hrest := length_le_run (c.step e) events
    have hstep : (c.step e).calls.length < Nat.pow 2 64 := Nat.lt_of_le_of_lt hrest hfew
    exact ih (sound_effect h (effect_step h e hstep)) hfew

/-- A call goes on in a run: what it had got it keeps, and its end does not change. By induction on
the events, with the soundness of the client carried along. -/
theorem later_run {c : Client η} (h : c.Sound) (events : List (Event η))
    (hfew : (c.run events).calls.length < Nat.pow 2 64) {n : Nat} {call : Call}
    (hcall : c.call? n = some call) :
    ∃ call', (c.run events).call? n = some call' ∧ call.Later call' := by
  induction events generalizing c call with
  | nil => exact ⟨call, hcall, .refl call⟩
  | cons e events ih =>
    have hrest := length_le_run (c.step e) events
    have heffect := effect_step h e (Nat.lt_of_le_of_lt hrest hfew)
    obtain ⟨call', hcall', hturn⟩ := heffect.exists_turn h hcall
    obtain ⟨call'', hcall'', hlater⟩ := ih (sound_effect h heffect) hfew hcall'
    exact ⟨call'', hcall'', hturn.later.trans hlater⟩

/-- A number that is not in the table never comes back. It has to be the number of a call (`hle`),
since a number beyond the counter is entered when its turn comes. -/
theorem notMem_pending_run {c : Client η} (h : c.Sound) (events : List (Event η))
    (hfew : (c.run events).calls.length < Nat.pow 2 64) {n : Nat} (hle : n ≤ c.calls.length)
    (hn : n ∉ c.pending) : n ∉ (c.run events).pending := by
  induction events generalizing c with
  | nil => exact hn
  | cons e events ih =>
    have hrest := length_le_run (c.step e) events
    have heffect := effect_step h e (Nat.lt_of_le_of_lt hrest hfew)
    refine ih (sound_effect h heffect) hfew (Nat.le_trans hle (length_le_step c e)) fun hmem => ?_
    rcases heffect.pending_subset h n hmem with hold | hnew
    · exact hn hold
    · omega

end LanguageClient.Rpc
