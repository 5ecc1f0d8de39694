import LanguageClient.Proofs.Rpc.Course

/-!
# `LanguageClient.Proofs.Rpc.Loss`: what callers find after the dispatcher has ended

When the dispatcher ends, for whatever reason, everybody who waits without an answer is
cancelled, and from then on nothing can be sent.

* `Call.Forsaken`: a call whose mailbox has been given up. Its caller finds out at the next
  look and needs no timeout for it (`Forsaken.resume`, `Forsaken.expire`).
* `Client.Down`: the dispatcher has ended, and the queue and the table are empty.
  `Down.step` says what can still happen: calls are refused, and callers look into their
  mailboxes (`Sequel`).
* `settle_of_down`: left to itself, a client that is down ends the calls it has given up.
* `bereft_of_ends`: what callers find, at every later moment of a run.

A client is closed by an owner who has it alone: nobody makes a call between the two halves
of closing. So if the dispatcher has to be cut off then, everybody was cancelled before. A
client that is dropped without being closed has no callers left, and is not spoken of here.
-/

set_option autoImplicit false

namespace LanguageClient.Rpc

variable {η : Type}

open Client

/-! ### One call -/

namespace Call

/-- A call that nobody will answer. Its caller does not know yet, or has been told, or is
among those who have left. -/
structure Forsaken (c : Call) (left : Prop) : Prop where
  mailbox : c.mailbox = .givenUp
  progress : c.progress = .waiting ∨ c.progress = .ended (.error .cancelled) ∨
    c.progress = .abandoned ∧ left

variable {c : Call} {left left' : Prop}

/-- Who is forsaken stays so when more callers have left. -/
theorem Forsaken.mono (h : c.Forsaken left) (hleft : left → left') : c.Forsaken left' :=
  ⟨h.mailbox, h.progress.imp_right (Or.imp_right (And.imp_right hleft))⟩

/-- A caller who looks into a mailbox that was given up is told that the call is cancelled. -/
theorem resume_of_givenUp (hmailbox : c.mailbox = .givenUp) (hwaits : c.progress = .waiting) :
    c.resume = { c with progress := .ended (.error .cancelled) } := by
  rw [resume, if_pos (isWaiting_iff.mpr hwaits)]
  simp only [hmailbox]

/-- Whoever does not wait any more finds nothing new. -/
theorem resume_of_not_waiting (h : c.isWaiting = false) : c.resume = c := by
  rw [resume, if_neg (Bool.eq_false_iff.mp h)]

/-- There is something in the mailbox, so it does not matter whether the time is over. -/
theorem Forsaken.expire_eq (h : c.Forsaken left) : c.expire = c.resume := by
  refine if_neg ?_
  rintro ⟨-, hempty⟩
  exact nomatch h.mailbox.symm.trans hempty

/-- A look of its caller leaves a call forsaken. It turns waiting into an end, and after that
nothing. -/
theorem Forsaken.resume (h : c.Forsaken left) : c.resume.Forsaken left := by
  rcases h.progress with hwaits | hrest
  · rw [resume_of_givenUp h.mailbox hwaits]
    exact ⟨h.mailbox, .inr (.inl rfl)⟩
  · rw [resume_of_not_waiting]
    · exact h
    · rcases hrest with hended | ⟨hgone, -⟩
      · simp only [isWaiting, hended]
      · simp only [isWaiting, hgone]

/-- A caller may still go away and is among those who have left then. A caller who has been told
already keeps the end. -/
theorem Forsaken.abandon (h : c.Forsaken left) (hleft : left → left') (hgone : left') :
    c.abandon.Forsaken left' := by
  unfold Call.abandon
  split
  · exact ⟨h.mailbox, .inr (.inr ⟨rfl, hgone⟩)⟩
  · exact h.mono hleft

/-- How a call ends that nobody will answer, once its caller has looked: as cancelled. The caller
must not be among those who have left, for then nobody looks. -/
theorem Forsaken.outcome?_resume (h : c.Forsaken left) (hstays : ¬ left) :
    c.resume.outcome? = some (.error .cancelled) := by
  rw [outcome?_eq_some]
  rcases h.progress with hwaits | hended | ⟨-, hleft⟩
  · rw [resume_of_givenUp h.mailbox hwaits]
  · rw [resume_of_not_waiting]
    · exact hended
    · simp only [isWaiting, hended]
  · exact absurd hleft hstays

/-- Whether the caller waits and has something to find. -/
def isReady (c : Call) : Bool := c.isWaiting && c.mailbox != .empty

/-- Whoever has looked is not ready any more. So settling comes to an end: each look makes the ready
ones fewer. -/
theorem isReady_resume (c : Call) : c.resume.isReady = false := by
  unfold resume
  split
  · split
    · rename_i hempty
      rw [isReady, hempty]
      exact Bool.and_false _
    · rfl
    · rfl
  · rename_i hnot
    rw [isReady, Bool.eq_false_iff.mpr hnot]
    rfl

end Call

/-! ### A client that is down -/

/-- The dispatcher has ended, and nothing and nobody waits for it. -/
structure Client.Down (c : Client η) : Prop where
  dispatcher : c.dispatcher = .ended
  outbound : c.outbound = []
  pending : c.pending = []

/-- What a step does to the calls of a client that is down. -/
inductive Sequel (c : Client η) (e : Event η) (after : Client η) : Prop where
  | keep (calls : after.calls = c.calls)
  | refuse (shape : Shape)
      (calls : after.calls = c.calls ++
        [⟨c.calls.length + 1, shape, .empty, .ended (.error .disconnected)⟩])
  /-- A caller looks into the mailbox, or does so for the last time. -/
  | look (number : Nat) (f : Call → Call) (what : f = Call.resume ∨ f = Call.expire)
      (calls : after.calls = (c.update number f).calls)
  | leave (number : Nat) (event : e = .abandon number)
      (calls : after.calls = (c.update number Call.abandon).calls)

namespace Client

variable {c after : Client η} {e : Event η}

/-- With an empty table nobody has an id that a new call could take. -/
theorem Down.sharing (h : c.Down) (number : Nat) : c.sharing number = [] := by
  rw [Client.sharing, h.pending, List.filter_nil]

/-- No call can be sent any more. A request fails at once, and all that is left of it is the call
that has failed. -/
theorem Down.request (h : c.Down) (method : String) (params : Option Json) (shape : Shape) :
    c.request method params shape = (c.calls.length + 1, c.refusing shape) := by
  unfold Client.request
  dsimp only
  rw [h.sharing, giveUp_nil, if_pos h.dispatcher]
  rfl

/-- No notification can be sent any more. Its sender is told so, and nothing is queued. -/
theorem Down.notify (h : c.Down) (method : String) (params : Option Json) :
    c.notify method params = .error .disconnected := if_pos h.dispatcher

/-- A caller who looks into the mailbox concerns nobody else: there is no entry to take out, and
nobody shares the id. -/
theorem Down.look (h : c.Down) (number : Nat) (f : Call → Call)
    (hf : f = Call.resume ∨ f = Call.expire) :
    (c.look number f).Down ∧ Sequel c e (c.look number f) := by
  -- The table is empty, so it has neither this number nor another with the same id.
  have hnone : (c.update number f).sharing number = [] := h.sharing number
  have herase : c.pending.erase number = [] := by rw [h.pending, List.erase_nil]
  unfold Client.look settleTable
  split
  · split
    · rw [hnone, giveUp_nil]
      exact ⟨⟨h.dispatcher, h.outbound, herase⟩, .look number f hf rfl⟩
    · rw [hnone, giveUp_nil]
      exact ⟨⟨h.dispatcher, h.outbound, herase⟩, .look number f hf rfl⟩
    · exact ⟨⟨h.dispatcher, h.outbound, h.pending⟩, .look number f hf rfl⟩
  · exact ⟨h, .keep rfl⟩

/-- With an empty table there is nobody to cancel. -/
theorem Down.cancelAll (h : c.Down) : c.cancelAll = c := by
  rw [Client.cancelAll, h.pending, giveUp_nil]

/-- A client that is down stays so, and only its callers do something. All that the dispatcher could
do is over, and closing or dropping the client finds nothing to undo. -/
theorem Down.step (h : c.Down) (e : Event η) : (c.step e).Down ∧ Sequel c e (c.step e) := by
  have hrunning : ¬ c.dispatcher = .running := fun hr => nomatch h.dispatcher.symm.trans hr
  have same : c.Down ∧ Sequel c e c := ⟨h, .keep rfl⟩
  cases e with
  | request method params shape =>
    -- A request fails before it is entered, so neither table nor queue gets anything.
    show (c.request method params shape).2.Down ∧ _
    rw [Client.step, h.request]
    exact ⟨⟨h.dispatcher, h.outbound, h.pending⟩, .refuse shape rfl⟩
  | notify method params =>
    simp only [Client.step, h.notify]
    exact same
  | resume number => exact h.look number Call.resume (.inl rfl)
  | expire number => exact h.look number Call.expire (.inr rfl)
  | abandon number => exact ⟨⟨h.dispatcher, h.outbound, h.pending⟩, .leave number rfl rfl⟩
  | cancelAll =>
    rw [Client.step, h.cancelAll]
    exact same
  | beginClose =>
    rw [Client.step, beginClose, h.cancelAll]
    exact ⟨⟨h.dispatcher, h.outbound, h.pending⟩, .keep rfl⟩
  | sendNext =>
    -- The dispatcher has ended, so its own events do nothing.
    have hsame : c.step .sendNext = c := by simp only [Client.step, sendNext, h.dispatcher]
    rw [hsame]
    exact same
  | receiveNext =>
    have hsame : c.step .receiveNext = c := if_pos h.dispatcher
    rw [hsame]
    exact same
  | stop =>
    have hsame : c.step .stop = c := if_neg fun hstop => hrunning hstop.1
    rw [hsame]
    exact same
  | endClose =>
    simp only [Client.step]
    split
    · exact ⟨⟨h.dispatcher, h.outbound, h.pending⟩, .keep rfl⟩
    · exact same
  | forceClose =>
    -- There is nothing to cut off. Only the stream may be closed by this.
    simp only [Client.step, forceClose, if_neg hrunning]
    split
    · exact ⟨⟨h.dispatcher, h.outbound, h.pending⟩, .keep rfl⟩
    · exact same
  -- Cutting off the dispatcher and closing the stream leaves the calls alone.
  | drop => exact ⟨⟨rfl, rfl, h.pending⟩, .keep rfl⟩
  | onNotification | onRequest | write | deliver | finish | breakOff =>
    exact ⟨⟨h.dispatcher, h.outbound, h.pending⟩, .keep rfl⟩

/-- A call that is changed is found changed, and the others as they were. The change must keep the
number, by which calls are found. -/
theorem call?_update_of {f : Call → Call} (hf : ∀ call, (f call).number = call.number)
    (number : Nat) {n : Nat} {call : Call} (hcall : c.call? n = some call) :
    (c.update number f).call? n = some (if call.number = number then f call else call) := by
  have hg : ∀ call' ∈ c.calls,
      (if call'.number = number then f call' else call').number = call'.number := by
    intro call' _
    split
    · exact hf call'
    · rfl
  have hfind : (c.calls.find? fun call' => call'.number = n) = some call := hcall
  rw [update, call?, find?_map_number hg, hfind, Option.map_some]

/-- Calls are found by what is in `calls` alone. -/
theorem call?_congr (hcalls : after.calls = c.calls) (n : Nat) : after.call? n = c.call? n := by
  rw [call?, hcalls, call?]

/-- A call that nobody will answer stays one. A look of its own caller ends it as cancelled, going
away adds the caller to those who have left, and what others do does not reach it. -/
theorem forsaken_sequel {n : Nat} {call : Call} {left : Prop} (hs : Sequel c e after)
    (hcall : c.call? n = some call) (hforsaken : call.Forsaken left) :
    ∃ call', after.call? n = some call' ∧ call'.Forsaken (left ∨ e = .abandon n) := by
  have hstays : call.Forsaken (left ∨ e = .abandon n) := hforsaken.mono .inl
  cases hs with
  | keep calls => exact ⟨call, (call?_congr calls n).trans hcall, hstays⟩
  | refuse shape calls =>
    -- A new call stands behind the others, so that this one is found first.
    have hfind : (c.calls.find? fun call' => call'.number = n) = some call := hcall
    refine ⟨call, ?_, hstays⟩
    rw [call?, calls, List.find?_append, hfind, Option.some_or]
  | look number f what calls =>
    -- Looking with or without the time being over is the same here (`expire_eq`).
    have hnumber : ∀ call, (f call).number = call.number := by
      rcases what with rfl | rfl
      · exact fun call => call.later_resume.number
      · exact fun call => call.later_expire.number
    have hchanged : (f call).Forsaken left := by
      rcases what with rfl | rfl
      · exact hforsaken.resume
      · exact hforsaken.expire_eq ▸ hforsaken.resume
    refine ⟨_, (call?_congr calls n).trans (call?_update_of hnumber number hcall), ?_⟩
    split
    · exact hchanged.mono .inl
    · exact hstays
  | leave number event calls =>
    -- It is this caller who goes away, or another one.
    have hnumber : ∀ call : Call, call.abandon.number = call.number :=
      fun call => call.later_abandon.number
    refine ⟨_, (call?_congr calls n).trans (call?_update_of hnumber number hcall), ?_⟩
    split
    · rename_i hsame
      have hleaves : e = .abandon n := by rw [event, ← hsame, (mem_of_call? hcall).2]
      exact hforsaken.abandon .inl (.inr hleaves)
    · exact hstays

/-- A client that is down stays so for the rest of a run. -/
theorem Down.run (h : c.Down) (events : List (Event η)) : (c.run events).Down := by
  induction events generalizing c with
  | nil => exact h
  | cons e events ih => exact ih (h.step e).1

/-- A call that nobody will answer stays one for the rest of a run. Its caller may go away in the
meantime, and then stands among the events. -/
theorem Down.forsaken_run (h : c.Down) (events : List (Event η)) {n : Nat} {call : Call}
    {left : Prop} (hcall : c.call? n = some call) (hforsaken : call.Forsaken left) :
    ∃ call', (c.run events).call? n = some call' ∧
      call'.Forsaken (left ∨ .abandon n ∈ events) := by
  induction events generalizing c call left with
  | nil => exact ⟨call, hcall, hforsaken.mono .inl⟩
  | cons e events ih =>
    obtain ⟨hdown, hsequel⟩ := h.step e
    obtain ⟨call', hcall', hforsaken'⟩ := forsaken_sequel hsequel hcall hforsaken
    obtain ⟨last, hlast, hend⟩ := ih hdown hcall' hforsaken'
    refine ⟨last, hlast, hend.mono ?_⟩
    rintro ((hleft | rfl) | hlater)
    · exact .inl hleft
    · exact .inr List.mem_cons_self
    · exact .inr (List.mem_cons_of_mem e hlater)

/-- A caller who looks is told what the mailbox holds, and nothing that is done to the table changes
this. `hidle` says that `f` is the look of a waiting caller, so the others may be left out. -/
theorem Down.outcome?_look (h : c.Down) {n : Nat} {call : Call} (hcall : c.call? n = some call)
    {f : Call → Call} (hnumber : ∀ call, (f call).number = call.number)
    (hidle : call.isWaiting = false → f call = call) :
    (c.look n f).outcome? n = (f call).outcome? := by
  -- This is the outcome after the look, before the table is settled.
  have hchanged : (c.update n f).outcome? n = (f call).outcome? := by
    rw [outcome?, call?_update_of hnumber n hcall, if_pos (mem_of_call? hcall).2, Option.bind_some]
  -- Settling gives up whoever shares the id. The table is empty, so that is nobody.
  have hnone : (c.update n f).sharing n = [] := h.sharing n
  have hwaiting : (c.call? n).any Call.isWaiting = call.isWaiting := by
    rw [hcall, Option.any_some]
  unfold Client.look settleTable
  rw [hwaiting]
  split
  · split
    · rw [hnone, giveUp_nil]
      exact hchanged
    · rw [hnone, giveUp_nil]
      exact hchanged
    · exact hchanged
  · rename_i hnot
    rw [hidle (Bool.eq_false_iff.mpr hnot), outcome?, hcall, Option.bind_some]

/-! ### Left to itself -/

/-- How many callers wait and have something to find. -/
def ready (c : Client η) : Nat := c.calls.countP Call.isReady

/-- Changing one of those who are ready, so that it is ready no more, makes them fewer. The others
must not become ready by the change (`hg`). -/
theorem countP_map_lt {calls : List Call} {g : Call → Call}
    (hg : ∀ call ∈ calls, (g call).isReady = true → call.isReady = true) {call : Call}
    (hmem : call ∈ calls) (hready : call.isReady = true) (hdone : (g call).isReady = false) :
    (calls.map g).countP Call.isReady < calls.countP Call.isReady := by
  induction calls with
  | nil => exact nomatch hmem
  | cons first rest ih =>
    have hrest : (rest.map g).countP Call.isReady ≤ rest.countP Call.isReady := by
      rw [List.countP_map]
      exact List.countP_mono_left fun call hcall => hg call (List.mem_cons_of_mem first hcall)
    rw [List.map_cons, List.countP_cons, List.countP_cons]
    rcases List.mem_cons.mp hmem with rfl | hmem
    · -- It is the first one that changes: it counted before and does not count now.
      rw [if_pos hready, if_neg (Bool.eq_false_iff.mp hdone)]
      omega
    · -- It is among the rest, which has become fewer. The first counts now only if it did before.
      have hlt := ih (fun call hcall => hg call (List.mem_cons_of_mem first hcall)) hmem
      have hfirst := hg first List.mem_cons_self
      split
      · rename_i hchanged
        rw [if_pos (hfirst hchanged)]
        omega
      · omega

/-- If the client is down, a look of a waiting caller is that caller's change and nothing
besides. -/
theorem Down.calls_resume (h : c.Down) {call : Call} (hcall : c.call? call.number = some call)
    (hwaits : call.isWaiting = true) :
    (c.resume call.number).calls = (c.update call.number Call.resume).calls := by
  have hnone : (c.update call.number Call.resume).sharing call.number = [] := h.sharing _
  unfold Client.resume Client.look settleTable
  rw [hcall, Option.any_some, if_pos hwaits]
  split
  · rw [hnone, giveUp_nil]
  · rw [hnone, giveUp_nil]
  · rfl

/-- One who is ready finds what there is, and there is one less to be woken. This is the measure by
which settling a client that is down comes to an end. -/
theorem Down.ready_resume (h : c.Down) (hnumbers : c.Numbered) {call : Call}
    (hmem : call ∈ c.calls) (hready : call.isReady = true) :
    (c.resume call.number).ready < c.ready := by
  have hcalls := h.calls_resume (hnumbers.call?_of_mem hmem) (Bool.and_eq_true_iff.mp hready).1
  rw [ready, hcalls]
  refine countP_map_lt (fun other _ hother => ?_) hmem hready ?_
  · split at hother
    · rw [Call.isReady_resume] at hother
      exact nomatch hother
    · exact hother
  · rw [if_pos rfl, Call.isReady_resume]

/-- Left to itself, a client that is down wakes somebody who is ready. Without anyone who is ready,
the writer may go on, and it touches no call. -/
theorem Down.next?_cases (h : c.Down) (refusal : Option String) :
    (∃ call ∈ c.calls, call.isReady = true ∧ c.next? refusal = some (.resume call.number)) ∨
      c.ready = 0 ∧ (c.next? refusal = none ∨ c.next? refusal = some (.write refusal)) := by
  -- The dispatcher would go first, and has ended. Then the callers are asked.
  have hdispatch : c.nextDispatch? = none := if_pos h.dispatcher
  -- What `next?` looks for is what `ready` counts.
  have hready : ∀ call : Call,
      decide (call.isWaiting = true ∧ call.mailbox ≠ .empty) = call.isReady := by
    intro call
    rw [Bool.decide_and, Bool.decide_eq_true, decide_not, Call.isReady]
    rfl
  unfold next?
  rw [hdispatch, Option.none_or]
  cases hcaller : c.calls.find? fun call => call.isWaiting ∧ call.mailbox ≠ .empty with
  | some call =>
    have hfound := List.find?_some hcaller
    refine .inl ⟨call, List.mem_of_find?_eq_some hcaller, ?_, ?_⟩
    · rw [← hready]
      exact hfound
    · rw [nextCaller?, hcaller]
      rfl
  | none =>
    refine .inr ⟨List.countP_eq_zero.mpr fun call hmem => ?_, ?_⟩
    · rw [← hready]
      exact List.find?_eq_none.mp hcaller call hmem
    · rw [nextCaller?, hcaller]
      -- Nobody is ready, so all that is left is the writer.
      show (if c.stream.canWrite then some (.write refusal) else none : Option (Event η)) = _ ∨ _
      split
      · exact .inr rfl
      · exact .inl rfl

/-- Left to itself, a client that is down lets all who are ready find what there is. The induction
is on the fuel: every look uses one unit and makes the ready ones fewer, so fuel for the ready ones
is enough. What happens is a run in which nobody goes away. -/
theorem settle_of_down (h : c.Down) {left : Nat → Prop} (htabled : c.Tabled left)
    (refusal : Option String) {fuel : Nat} (hfuel : c.ready ≤ fuel) :
    (c.settle refusal fuel).ready = 0 ∧ ∃ events, c.settle refusal fuel = c.run events ∧
      ∀ n, .abandon n ∉ events := by
  induction fuel generalizing c left with
  | zero => exact ⟨Nat.le_zero.mp hfuel, [], rfl, fun n => List.not_mem_nil⟩
  | succ fuel ih =>
    unfold settle
    rcases h.next?_cases refusal with ⟨call, hmem, hready, hnext⟩ | ⟨hnobody, hnext | hnext⟩
    · -- Somebody is woken, and one less is ready.
      rw [hnext]
      have hlt := h.ready_resume htabled.numbers hmem hready
      have hdown := (h.step (.resume call.number)).1
      have hlater : (c.step (.resume call.number)).ready ≤ fuel :=
        Nat.le_of_lt_succ (Nat.lt_of_lt_of_le hlt hfuel)
      obtain ⟨hzero, events, hrun, hstays⟩ := ih hdown (tabled_step htabled _) hlater
      refine ⟨hzero, .resume call.number :: events, hrun, fun n hn => ?_⟩
      rcases List.mem_cons.mp hn with hn | hn
      · exact nomatch hn
      · exact hstays n hn
    · -- The client is at rest already.
      rw [hnext]
      exact ⟨hnobody, [], rfl, fun n => List.not_mem_nil⟩
    · -- Nobody is ready, so the writer may use up the fuel that is left.
      rw [hnext]
      have hlater : (c.step (.write refusal)).ready ≤ fuel := by
        show c.ready ≤ fuel
        rw [hnobody]
        exact Nat.zero_le fuel
      obtain ⟨hzero, events, hrun, hstays⟩ :=
        ih (h.step (.write refusal)).1 (tabled_step htabled _) hlater
      refine ⟨hzero, .write refusal :: events, hrun, fun n hn => ?_⟩
      rcases List.mem_cons.mp hn with hn | hn
      · exact nomatch hn
      · exact hstays n hn

end Client

/-! ### When the dispatcher ends -/

/-- Who may end the dispatcher. A client that has an owner is not dropped, and while the owner
closes it, nobody makes a call. -/
def Owned (before : List (Event η)) : Event η → Prop
  | .drop => False
  | .forceClose => ∃ front closing, before = front ++ .beginClose :: closing ∧
      ∀ e ∈ closing, e.isRequest = false
  | _ => True

variable {c after : Client η} {e : Event η}

/-- Only a request enters anything into the table. Every other event leaves it, or takes something
out. -/
theorem Course.pending_subset (h : Course c e after) (hquiet : e.isRequest = false) :
    after.pending ⊆ c.pending := by
  have hnone : ∀ {c' : Client η}, c'.endDispatch.pending ⊆ c.pending := by
    intro c'
    show (c'.giveUp c'.pending).pending ⊆ c.pending
    rw [pending_giveUp_pending]
    exact List.nil_subset _
  cases h with
  | goesOn dispatcher accepted outbound received stream pending => exact pending hquiet
  | writes refusal event state => exact state ▸ List.Subset.refl _
  | moves m rest event running outbound takes state => exact state ▸ List.Subset.refl _
  -- A dispatcher that ends leaves the table empty.
  | fails notices event running refuses state => exact state ▸ hnone
  | loses framing incoming connected notices event running nothing state => exact state ▸ hnone
  | stops event running stopping state => exact state ▸ hnone
  | cuts notices event state => exact state ▸ List.Subset.refl _
  | closes event ended stopping state => exact state ▸ List.Subset.refl _

/-- Closing begins with an empty table, and it stays empty, since the owner makes no calls while
closing. -/
theorem pending_of_closing (front : List (Event η)) {closing : List (Event η)}
    (hquiet : ∀ e ∈ closing, e.isRequest = false) :
    (ran (front ++ .beginClose :: closing)).pending = [] := by
  have hempty : ((ran front).step .beginClose).pending = [] := pending_giveUp_pending _
  rw [ran, run_append]
  show (((ran front).step .beginClose).run closing).pending = []
  -- What counts of the state in which closing begins is that its table is empty.
  generalize (ran front).step .beginClose = c at hempty
  induction closing generalizing c with
  | nil => exact hempty
  | cons e closing ih =>
    refine ih (fun e' he' => hquiet e' (List.mem_cons_of_mem e he')) _ ?_
    have hsubset := (course_step c e).pending_subset (hquiet e List.mem_cons_self)
    rw [hempty] at hsubset
    exact List.eq_nil_of_subset_nil hsubset

/-- When the dispatcher ends, the mailboxes of all in the table are given up, and nothing is left in
the queue and the table. This is true of every way in which it ends: it clears up by itself, or it
is cut off by an owner who has cancelled all calls before. -/
theorem down_of_ends {before : List (Event η)} (hends : (ran before).ends e = true)
    (howned : Owned before e) :
    ((ran before).step e).Down ∧
      ((ran before).step e).calls = ((ran before).giveUp (ran before).pending).calls := by
  obtain ⟨hrunning, hended⟩ := ends_iff.mp hends
  have hgoes : ∀ {after : Client η}, after.dispatcher = (ran before).dispatcher →
      after.dispatcher = .ended → False :=
    fun hsame hended => nomatch (hrunning.symm.trans hsame.symm).trans hended
  have hcourse := course_step (ran before) e
  generalize (ran before).step e = after at hcourse hended ⊢
  cases hcourse with
  -- These courses leave the dispatcher running, or find it ended before.
  | goesOn dispatcher => exact (hgoes dispatcher hended).elim
  | writes refusal event state => exact (hgoes (state ▸ rfl) hended).elim
  | moves m rest event running outbound takes state => exact (hgoes (state ▸ rfl) hended).elim
  | closes event ended => exact nomatch hrunning.symm.trans ended
  | fails notices event running refuses state =>
    -- In these three the dispatcher ends by itself and gives up what is in the table.
    subst state
    exact ⟨⟨rfl, rfl, pending_giveUp_pending _⟩, rfl⟩
  | loses framing incoming connected notices event running nothing state =>
    subst state
    exact ⟨⟨rfl, rfl, pending_giveUp_pending _⟩, rfl⟩
  | stops event running stopping state =>
    subst state
    exact ⟨⟨rfl, rfl, pending_giveUp_pending _⟩, rfl⟩
  | cuts notices event state =>
    subst state
    rcases event with ⟨rfl, -⟩ | rfl
    · -- Closing has taken too long. Everybody was cancelled when it began.
      obtain ⟨front, closing, rfl, hquiet⟩ := howned
      have hempty := pending_of_closing front hquiet
      refine ⟨⟨rfl, rfl, hempty⟩, ?_⟩
      rw [hempty, giveUp_nil]
      rfl
    · -- A client that has an owner is not dropped.
      exact howned.elim

/-- Whoever waits without an answer when the dispatcher ends will not get one. The call is in the
table and given up with it, or it had been given up before. -/
theorem forsaken_of_ends {before : List (Event η)} (hends : (ran before).ends e = true)
    (howned : Owned before e) {n : Nat} {call : Call} (hcall : (ran before).call? n = some call)
    (hwaits : call.isWaiting = true) (hunanswered : ∀ r, call.mailbox ≠ .filled r) :
    ∃ call', ((ran before).step e).call? n = some call' ∧ call'.Forsaken False := by
  obtain ⟨hmem, hnumber⟩ := mem_of_call? hcall
  have hprogress := Call.isWaiting_iff.mp hwaits
  have hg : ∀ call' ∈ (ran before).calls,
      (if call'.number ∈ (ran before).pending then call'.giveUp else call').number =
        call'.number := by
    intro call' _
    split
    · exact call'.later_giveUp.number
    · rfl
  have hfind : ((ran before).calls.find? fun call' => call'.number = n) = some call := hcall
  refine ⟨if call.number ∈ (ran before).pending then call.giveUp else call, ?_, ?_⟩
  · rw [call?, (down_of_ends hends howned).2, giveUp, find?_map_number hg, hfind, Option.map_some]
  · cases hmailbox : call.mailbox with
    | filled r => exact absurd hmailbox (hunanswered r)
    | empty =>
      -- In flight, so in the table.
      have hflight := Call.inFlight_iff.mpr ⟨hprogress, hmailbox⟩
      rw [if_pos ((tabled_run before).flying call hmem hflight), Call.giveUp, if_pos hmailbox]
      exact ⟨rfl, .inl hprogress⟩
    | givenUp =>
      -- Giving up what is given up already changes nothing.
      have hfull : call.mailbox ≠ .empty := by
        rw [hmailbox]
        decide
      have hsame : call.giveUp = call := if_neg hfull
      rw [hsame, ite_self]
      exact ⟨hmailbox, .inl hprogress⟩

/-- After the dispatcher has ended, nothing more is put on the wire: what the stream carries is what
it carried, and only the writer goes on with it. -/
theorem Course.carried (h : Course c e after) (hended : c.dispatcher = .ended)
    {texts : List (List Char)} (hc : c.stream.Carried texts) : after.stream.Carried texts := by
  have hnot : ∀ {P : Prop}, c.dispatcher = .running → P :=
    fun hrunning => nomatch hrunning.symm.trans hended
  cases h with
  | goesOn dispatcher accepted outbound received stream => exact stream.carried hc
  | writes refusal event state => exact state ▸ Stream.carried_write hc refusal
  -- Moving messages is the business of a dispatcher that runs.
  | moves m rest event running => exact hnot running
  | fails notices event running => exact hnot running
  | loses framing incoming connected notices event running => exact hnot running
  | stops event running => exact hnot running
  | cuts notices event state => exact state ▸ hc.congr rfl rfl rfl
  | closes event ended stopping state => exact state ▸ hc.congr rfl rfl rfl

/-- For the rest of a run nothing more is put on the wire. What the stream carries is what it
carried when the dispatcher ended. -/
theorem carried_run (hended : c.dispatcher = .ended) {texts : List (List Char)}
    (hc : c.stream.Carried texts) (events : List (Event η)) :
    (c.run events).stream.Carried texts := by
  induction events generalizing c with
  | nil => exact hc
  | cons e events ih =>
    exact ih ((course_step c e).ended hended) ((course_step c e).carried hended hc)

/-! ### What callers find -/

/-- A caller is told that the request was cancelled, and nothing else, with or without a
timeout, and as soon as the client is left to itself. -/
structure Client.Cancels (c : Client η) (n : Nat) : Prop where
  resume : (c.resume n).outcome? n = some (.error .cancelled)
  expire : (c.expire n).outcome? n = some (.error .cancelled)
  outcome : ∀ o, c.outcome? n = some o → o = .error .cancelled
  settle : ∀ refusal fuel, c.calls.length ≤ fuel →
    (c.settle refusal fuel).outcome? n = some (.error .cancelled)

/-- A call that nobody will answer ends as cancelled: at a look of its caller, when the time is
over, and when the client is left to itself. If it has an end already, that is this one. -/
theorem Client.Down.cancels (h : c.Down) {left : Nat → Prop} (htabled : c.Tabled left) {n : Nat}
    {call : Call} (hcall : c.call? n = some call) (hforsaken : call.Forsaken False) :
    c.Cancels n := by
  have hidle : call.isWaiting = false → call.expire = call :=
    fun hidle => hforsaken.expire_eq.trans (Call.resume_of_not_waiting hidle)
  refine ⟨?_, ?_, fun o ho => ?_, fun refusal fuel hfuel => ?_⟩
  · rw [Client.resume, h.outcome?_look hcall (fun call => call.later_resume.number)
      Call.resume_of_not_waiting, hforsaken.outcome?_resume id]
  · rw [Client.expire, h.outcome?_look hcall (fun call => call.later_expire.number) hidle,
      hforsaken.expire_eq, hforsaken.outcome?_resume id]
  · rw [outcome?, hcall, Option.bind_some] at ho
    have hended := Call.outcome?_eq_some.mp ho
    rcases hforsaken.progress with hwaits | hcancelled | ⟨-, hleft⟩
    · rw [hwaits] at hended
      cases hended
    · exact (Progress.ended.inj (hcancelled.symm.trans hended)).symm
    · exact hleft.elim
  · -- Settling leaves nobody ready, so the call cannot be waiting after it.
    have hready : c.ready ≤ fuel := Nat.le_trans List.countP_le_length hfuel
    obtain ⟨hnobody, events, hrun, hstays⟩ := settle_of_down h htabled refusal hready
    obtain ⟨last, hlast, hend⟩ := h.forsaken_run events hcall hforsaken
    rw [← hrun] at hlast
    rw [outcome?, hlast, Option.bind_some, Call.outcome?_eq_some]
    rcases hend.progress with hwaits | hcancelled | ⟨-, hleft | hleft⟩
    · -- Whoever still waited would be ready.
      have hnot := List.countP_eq_zero.mp hnobody last (mem_of_call? hlast).1
      rw [Call.isReady, Call.isWaiting_iff.mpr hwaits, hend.mailbox] at hnot
      exact absurd rfl hnot
    · exact hcancelled
    · exact hleft.elim
    · exact absurd hleft (hstays n)

/-- What holds in a run after an event that has ended the dispatcher. -/
structure Bereft (before : List (Event η)) (e : Event η) (after : List (Event η)) : Prop where
  /-- Whoever waited without an answer is cancelled, unless the caller goes away. -/
  cancels : ∀ n call, (ran before).call? n = some call → call.isWaiting = true →
    (∀ r, call.mailbox ≠ .filled r) → .abandon n ∉ after →
    (ran (before ++ e :: after)).Cancels n
  /-- A request fails at once and leaves no trace but its failure. -/
  request : ∀ method params shape,
    (ran (before ++ e :: after)).request method params shape =
      ((ran (before ++ e :: after)).calls.length + 1, (ran (before ++ e :: after)).refusing shape)
  refused : ∀ method params shape,
    ((ran (before ++ e :: after)).request method params shape).2.outcome?
      ((ran (before ++ e :: after)).calls.length + 1) = some (.error .disconnected)
  notify : ∀ method params,
    (ran (before ++ e :: after)).notify method params = .error .disconnected
  text : CallError.disconnected.message = "Transport error: Outbound channel closed"
  /-- The table and the queue are empty, and nothing has been added to what was to be
  written. -/
  down : (ran (before ++ e :: after)).Down
  wire : (ran (before ++ e :: after)).stream.written ++
      (ran (before ++ e :: after)).stream.outgoing <+:
    (ran (before ++ [e])).stream.written ++ (ran (before ++ [e])).stream.outgoing
  isConnected : (ran (before ++ e :: after)).isConnected = false

/-- The end of the dispatcher reaches every caller, in every run. What `down_of_ends` says of the
moment after it lasts by `Down.run` and `Down.forsaken_run`, and what callers find then is
`Down.cancels`. -/
theorem bereft_of_ends (before : List (Event η)) (e : Event η) (after : List (Event η))
    (hends : (ran before).ends e = true) (howned : Owned before e) : Bereft before e after := by
  have hsplit : ran (before ++ e :: after) = ((ran before).step e).run after := run_append _ _ _
  have hstep : ran (before ++ [e]) = (ran before).step e := run_concat _ _ _
  have hfirst := (down_of_ends hends howned).1
  have hdown : (ran (before ++ e :: after)).Down := by
    rw [hsplit]
    exact hfirst.run after
  have htabled := tabled_run (before ++ e :: after)
  refine
    { cancels := fun n call hcall hwaits hunanswered hstays => ?_
      request := fun method params shape => hdown.request method params shape
      refused := fun method params shape => ?_
      notify := fun method params => hdown.notify method params
      text := rfl, down := hdown, wire := ?_, isConnected := ?_ }
  · -- A call that waited is forsaken at that moment, and later too unless its caller leaves.
    obtain ⟨call', hcall', hforsaken⟩ := forsaken_of_ends hends howned hcall hwaits hunanswered
    obtain ⟨last, hlast, hend⟩ := hfirst.forsaken_run after hcall' hforsaken
    refine hdown.cancels htabled (hsplit ▸ hlast) (hend.mono ?_)
    rintro (hleft | hleft)
    · exact hleft
    · exact hstays hleft
  · -- The call that has just failed is found under its number, with its failure.
    have hnumbers : ((ran (before ++ e :: after)).refusing shape).Numbered :=
      htabled.numbers.of_concat rfl rfl
    have hcall := hnumbers.call?_of_mem (List.mem_append_right _ (List.mem_singleton.mpr rfl))
    rw [hdown.request, outcome?, hcall]
    rfl
  · -- Nothing is queued any more, so what is written later was on the stream already.
    rw [hsplit, hstep]
    have hcarried := carried_run hfirst.dispatcher
      (⟨List.prefix_rfl, fun _ => rfl⟩ : ((ran before).step e).stream.Carried _) after
    exact hcarried.front
  · rw [isConnected, hdown.dispatcher]
    rfl

/-- The other end goes away while a request is on its way. Its caller is told of the cancellation,
and a request made later fails at once. -/
theorem bereft_of_finish :
    (ran [.request "a" none .any, (.finish : Event Unit)]).ends .receiveNext = true ∧
      Bereft [.request "a" none .any, .finish] .receiveNext
        [.request "b" none .any, (.expire 1 : Event Unit)] ∧
      (ran [.request "a" none .any, .finish, .receiveNext, .request "b" none .any,
        (.expire 1 : Event Unit)]).Cancels 1 := by
  have hends : (ran [.request "a" none .any, (.finish : Event Unit)]).ends .receiveNext = true := by
    decide
  have hbereft : Bereft [.request "a" none .any, .finish] .receiveNext
      [.request "b" none .any, (.expire 1 : Event Unit)] :=
    bereft_of_ends _ _ _ hends trivial
  exact ⟨hends, hbereft, hbereft.cancels 1 ⟨1, .any, .empty, .waiting⟩ rfl rfl nofun (by simp)⟩

end LanguageClient.Rpc
