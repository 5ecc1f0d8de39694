import LanguageClient.Proofs.Rpc.Correlation
import Mathlib.Data.List.Nodup

/-!
# `LanguageClient.Proofs.Rpc.Pending`: who stands in the table

A call is in flight while its caller waits and nothing has come for it. Its entry is made
with the call, and every end of the call has to take it out again. They all do, but one: a
caller who goes away does not tell the table.

* `tabled_step` / `tabled_run`: what holds of the table between two steps. An entry
  belongs to a call in flight, or to a caller who went away while the call was in flight
  (`Deserted`).
* `accounted`: the table holds exactly the calls in flight, at every moment of a run, just
  when no caller goes away like that. `leak_of_abandon` is the shortest run in which one
  does.

Nothing here needs the counter to stay below 2^64. When it goes round, a new call takes
the entry of the old one with its id, and the old one is cancelled (`Client.sharing`).
-/

set_option autoImplicit false

namespace LanguageClient.Rpc

variable {η : Type}

/-! ### One call -/

namespace Call

/-- Whether the caller waits and nothing has come. -/
def inFlight (c : Call) : Bool := c.isWaiting && c.mailbox == .empty

/-- What is known of a call in the table: nothing has come for it, and its caller waits or
is among those who have left. -/
structure Listed (c : Call) (left : Prop) : Prop where
  empty : c.mailbox = .empty
  progress : c.progress = .waiting ∨ c.progress = .abandoned ∧ left

/-- A call in flight, in terms of its two fields. -/
theorem inFlight_iff {c : Call} :
    c.inFlight = true ↔ c.progress = .waiting ∧ c.mailbox = .empty := by
  rw [inFlight, Bool.and_eq_true, isWaiting_iff, beq_iff_eq]

/-- What is known of an entry stays known when more callers have left. -/
theorem Listed.mono {c : Call} {left left' : Prop} (h : c.Listed left) (hleft : left → left') :
    c.Listed left' :=
  ⟨h.empty, h.progress.imp_right fun hgone => ⟨hgone.1, hleft hgone.2⟩⟩

/-- A response that comes to a call ends its flight, whether or not somebody waits. -/
theorem inFlight_fill (r : Response) (c : Call) : (c.fill r).inFlight = false := by
  rw [Bool.eq_false_iff, ne_eq, inFlight_iff]
  rintro ⟨hprogress, hempty⟩
  unfold fill at hprogress hempty
  split at hempty
  · exact nomatch hempty
  · rename_i hnot
    rw [if_neg hnot] at hprogress
    exact hnot ⟨isWaiting_iff.mpr hprogress, hempty⟩

/-- A call that is given up is not in flight: it has its end in the mailbox, or its caller is
gone. -/
theorem inFlight_giveUp (c : Call) : c.giveUp.inFlight = false := by
  rw [Bool.eq_false_iff, ne_eq, inFlight_iff]
  rintro ⟨-, hempty⟩
  unfold giveUp at hempty
  split at hempty
  · exact nomatch hempty
  · rename_i hnot
    exact hnot hempty

/-- A call with an end is not in flight. -/
theorem inFlight_of_ended {c : Call} {o : Outcome} (h : c.outcome? = some o) :
    c.inFlight = false := by
  rw [Bool.eq_false_iff, ne_eq, inFlight_iff]
  rintro ⟨hprogress, -⟩
  rw [outcome?_eq_some.mp h] at hprogress
  exact nomatch hprogress

/-- A call that is still in flight after its caller looked was so before. Looking can end the
flight, and does not begin one. -/
theorem inFlight_of_resume {c : Call} (h : c.resume.inFlight = true) : c.inFlight = true := by
  unfold resume at h
  split at h
  · split at h
    · exact h
    · exact nomatch h
    · exact nomatch h
  · exact h

/-- Running out of time does not bring a call back into flight. It ends the flight, or finds what
has come. -/
theorem inFlight_of_expire {c : Call} (h : c.expire.inFlight = true) : c.inFlight = true := by
  unfold expire at h
  split at h
  · exact nomatch h
  · exact inFlight_of_resume h

/-- Going away does not bring a call back into flight. A call that was in flight is so no longer. -/
theorem inFlight_of_abandon {c : Call} (h : c.abandon.inFlight = true) : c.inFlight = true := by
  unfold abandon at h
  split at h
  · exact nomatch h
  · exact h

/-- Whoever goes away ends the flight of the call. The table does not hear of it, and that is the
one way in which table and flights come apart. -/
theorem inFlight_abandon (c : Call) : c.abandon.inFlight = false := by
  rw [Bool.eq_false_iff]
  intro h
  have hwaits := (inFlight_iff.mp (inFlight_of_abandon h)).1
  rw [abandon, if_pos (isWaiting_iff.mpr hwaits)] at h
  exact nomatch h

/-- For whom nothing has come, the time runs out, or nothing happens. -/
theorem Listed.expire {c : Call} {left : Prop} (h : c.Listed left) :
    c.expire = c ∨ c.expire.outcome? = some (.error .timeout) := by
  unfold Call.expire
  split
  · exact .inr rfl
  · exact .inl (resume_of_empty h.empty)

/-- Whoever goes away is among those who have left. -/
theorem Listed.abandon {c : Call} {left left' : Prop} (h : c.Listed left)
    (hleft : left → left') (hgone : c.inFlight = true → left') : c.abandon.Listed left' := by
  unfold Call.abandon
  split
  · rename_i hwaits
    exact ⟨h.empty, .inr ⟨rfl, hgone (inFlight_iff.mpr ⟨isWaiting_iff.mp hwaits, h.empty⟩)⟩⟩
  · exact h.mono hleft

end Call

/-! ### The table -/

namespace Client

/-- Whether the call of a number is in flight. -/
def inFlight (c : Client η) (n : Nat) : Bool := (c.call? n).any Call.inFlight

/-- The ids of the calls in flight. -/
def flightIds (c : Client η) : List Nat :=
  (c.calls.filter Call.inFlight).map fun call => wireId call.number

/-- The ids in the table. -/
def tableIds (c : Client η) : List Nat := c.pending.map wireId

/-- The table holds the ids of the calls in flight and no others. -/
def Exact (c : Client η) : Prop := ∀ id, id ∈ c.tableIds ↔ id ∈ c.flightIds

/-- What holds between two steps, if `left` are the numbers of those who have left. -/
structure Tabled (c : Client η) (left : Nat → Prop) : Prop where
  numbers : c.Numbered
  ids : c.tableIds.Nodup
  entries : ∀ n ∈ c.pending, ∃ call ∈ c.calls, call.number = n ∧ call.Listed (left n)
  flying : ∀ call ∈ c.calls, call.inFlight = true → call.number ∈ c.pending

variable {c after : Client η} {left left' : Nat → Prop}

/-- What is known of the table stays known when more callers have left. A run collects those who
have left, event by event. -/
theorem Tabled.mono (h : c.Tabled left) (hleft : ∀ n, left n → left' n) : c.Tabled left' := by
  refine ⟨h.numbers, h.ids, fun n hn => ?_, h.flying⟩
  obtain ⟨call, hmem, hnumber, hlisted⟩ := h.entries n hn
  exact ⟨call, hmem, hnumber, hlisted.mono (hleft n)⟩

/-- Only the calls and the table count. A step that changes neither keeps the table in order,
whatever it does to the stream or to the handlers. -/
theorem Tabled.congr (h : c.Tabled left) (hcalls : after.calls = c.calls)
    (hpending : after.pending = c.pending) : after.Tabled left := by
  refine ⟨?_, ?_, ?_, ?_⟩
  · rw [Numbered, hcalls]
    exact h.numbers
  · rw [tableIds, hpending]
    exact h.ids
  · rw [hcalls, hpending]
    exact h.entries
  · rw [hcalls, hpending]
    exact h.flying

/-- Each call is changed for itself, and perhaps some leave the table. What has to be shown is that
an entry which stays is still that of a call listed, and that a call still in flight stays in the
table. -/
theorem Tabled.of_map (h : c.Tabled left) {g : Call → Call} (hcalls : after.calls = c.calls.map g)
    (hnumber : ∀ call, (g call).number = call.number) (hpending : after.pending.Sublist c.pending)
    (hlisted : ∀ call ∈ c.calls, call.number ∈ after.pending → call.Listed (left call.number) →
      (g call).Listed (left' call.number))
    (hflying : ∀ call ∈ c.calls, (g call).inFlight = true → call.number ∈ after.pending) :
    after.Tabled left' := by
  refine ⟨h.numbers.of_map hcalls fun call _ => hnumber call, ?_, ?_, ?_⟩
  · exact h.ids.sublist (hpending.map wireId)
  · intro n hn
    obtain ⟨call, hmem, rfl, hbefore⟩ := h.entries n (hpending.subset hn)
    rw [hcalls]
    exact ⟨g call, List.mem_map_of_mem hmem, hnumber call, hlisted call hmem hn hbefore⟩
  · intro call' hmem' hflight
    rw [hcalls] at hmem'
    obtain ⟨call, hmem, rfl⟩ := List.mem_map.mp hmem'
    rw [hnumber]
    exact hflying call hmem hflight

/-- Those who are given up leave the table and end their flight, both for the same numbers. So what
is left in the table is as it was. -/
theorem Tabled.giveUp (h : c.Tabled left) (numbers : List Nat) :
    (c.giveUp numbers).Tabled left := by
  refine h.of_map rfl (fun call => ?_) List.filter_sublist (fun call hmem hn hlisted => ?_)
    fun call hmem hflight => ?_
  · split
    · exact call.later_giveUp.number
    · rfl
  · -- Who is still in the table was not given up.
    have hnot : call.number ∉ numbers := of_decide_eq_true (List.mem_filter.mp hn).2
    rw [if_neg hnot]
    exact hlisted
  · -- Who is given up is not in flight any more, and nobody else leaves the table.
    by_cases hgiven : call.number ∈ numbers
    · rw [if_pos hgiven, Call.inFlight_giveUp] at hflight
      exact nomatch hflight
    · rw [if_neg hgiven] at hflight
      exact List.mem_filter.mpr ⟨h.flying call hmem hflight, decide_eq_true hgiven⟩

/-- A call whose flight ends is taken out of the table. This is what an answer does, and also a
caller who has got an end or ran out of time. -/
theorem Tabled.take (h : c.Tabled left) (number : Nat) {f : Call → Call}
    (hnumber : ∀ call, (f call).number = call.number)
    (hends : ∀ call ∈ c.calls, call.number = number → (f call).inFlight = false) :
    ({ c.update number f with pending := c.pending.erase number } : Client η).Tabled left := by
  refine h.of_map (g := fun call => if call.number = number then f call else call) rfl
    (fun call => ?_) List.erase_sublist (fun call hmem hn hlisted => ?_)
    fun call hmem hflight => ?_
  · split
    · exact hnumber call
    · rfl
  · -- The table holds the number once, so it is gone now.
    have hne : call.number ≠ number := by
      rintro rfl
      exact List.Nodup.not_mem_erase (h.ids.of_map wireId) hn
    simp only [if_neg hne]
    exact hlisted
  · by_cases hcall : call.number = number
    · rw [if_pos hcall, hends call hmem hcall] at hflight
      exact nomatch hflight
    · rw [if_neg hcall] at hflight
      exact (List.mem_erase_of_ne hcall).mpr (h.flying call hmem hflight)

/-- One more call: it is refused, or it is entered under an id that the table does not
have. -/
theorem Tabled.of_concat (h : c.Tabled left) {fresh : Call}
    (hcalls : after.calls = c.calls ++ [fresh]) (hnumber : fresh.number = c.calls.length + 1)
    (hpending : after.pending = c.pending ∧ fresh.inFlight = false ∨
      after.pending = c.pending ++ [fresh.number] ∧ fresh.inFlight = true ∧
        wireId fresh.number ∉ c.tableIds) : after.Tabled left := by
  -- Entries that were there stay as they are, since calls are only added.
  have hold : ∀ n ∈ c.pending, ∃ call ∈ after.calls, call.number = n ∧ call.Listed (left n) := by
    intro n hn
    obtain ⟨call, hmem, hcall, hlisted⟩ := h.entries n hn
    rw [hcalls]
    exact ⟨call, List.mem_append_left _ hmem, hcall, hlisted⟩
  have hsplit : ∀ call ∈ after.calls, call ∈ c.calls ∨ call = fresh := by
    intro call hmem
    rw [hcalls] at hmem
    exact (List.mem_append.mp hmem).imp_right List.mem_singleton.mp
  -- The ids, the entries and the calls in flight: the new call is in none of them, or in all.
  refine ⟨h.numbers.of_concat hcalls hnumber, ?_, ?_, ?_⟩
  · rcases hpending with ⟨hpending, -⟩ | ⟨hpending, -, hfree⟩
    · rw [tableIds, hpending]
      exact h.ids
    · rw [tableIds, hpending, List.map_append, List.map_singleton, ← List.concat_eq_append]
      exact List.Nodup.concat hfree h.ids
  · intro n hn
    rcases hpending with ⟨hpending, -⟩ | ⟨hpending, hflight, -⟩
    · exact hold n (hpending ▸ hn)
    · rw [hpending] at hn
      rcases List.mem_append.mp hn with hn | hn
      · exact hold n hn
      · obtain ⟨hprogress, hempty⟩ := Call.inFlight_iff.mp hflight
        rw [hcalls]
        exact ⟨fresh, List.mem_append_right _ (List.mem_singleton.mpr rfl),
          (List.mem_singleton.mp hn).symm, hempty, .inl hprogress⟩
  · intro call hmem hflight
    rcases hpending with ⟨hpending, hrefused⟩ | ⟨hpending, -, -⟩
    · rw [hpending]
      rcases hsplit call hmem with hmem | rfl
      · exact h.flying call hmem hflight
      · -- A refused call is not in flight, so it needs no entry.
        rw [hrefused] at hflight
        exact nomatch hflight
    · rw [hpending]
      rcases hsplit call hmem with hmem | rfl
      · exact List.mem_append_left _ (h.flying call hmem hflight)
      · exact List.mem_append_right _ (List.mem_singleton.mpr rfl)

/-! ### Steps -/

/-- A request keeps the table in order. Whoever has the id that the counter gives out is displaced
before the new call is entered, so no id is in the table twice even when the counter has gone
round. -/
theorem Tabled.request (h : c.Tabled left) (method : String) (params : Option Json)
    (shape : Shape) : (c.request method params shape).2.Tabled left := by
  have hgiven := h.giveUp (c.sharing (c.calls.length + 1))
  have hlength := length_giveUp c (c.sharing (c.calls.length + 1))
  unfold Client.request
  dsimp only
  split
  · exact hgiven.of_concat rfl (congrArg (· + 1) hlength.symm) (.inl ⟨rfl, rfl⟩)
  · -- Whoever had the id has been displaced, and nobody has the number yet.
    have hfree : wireId (c.calls.length + 1) ∉
        (c.giveUp (c.sharing (c.calls.length + 1))).tableIds := by
      intro hid
      obtain ⟨n, hn, hsame⟩ := List.mem_map.mp hid
      obtain ⟨hmem, hkept⟩ := List.mem_filter.mp hn
      obtain ⟨call, hcall, hnumber, -⟩ := h.entries n hmem
      have hle := h.numbers.number_le hcall
      refine of_decide_eq_true hkept (List.mem_filter.mpr ⟨hmem, decide_eq_true ⟨?_, hsame⟩⟩)
      omega
    refine hgiven.of_concat rfl (congrArg (· + 1) hlength.symm) (.inr ⟨rfl, rfl, hfree⟩)

/-- A caller who looks into the mailbox, or does so for the last time. If that gives an end without
a response, the entry is taken out, and so is whoever shares its id. Otherwise the call has got its
response before, and with that it had left the table. -/
theorem Tabled.look (h : c.Tabled left) (number : Nat) {f : Call → Call}
    (hf : f = Call.resume ∨ f = Call.expire) : (c.look number f).Tabled left := by
  have hnumber : ∀ call : Call, (f call).number = call.number := by
    rcases hf with rfl | rfl
    · exact fun call => call.later_resume.number
    · exact fun call => call.later_expire.number
  have hflight : ∀ call : Call, (f call).inFlight = true → call.inFlight = true := by
    rcases hf with rfl | rfl
    · exact fun call => Call.inFlight_of_resume
    · exact fun call => Call.inFlight_of_expire
  have hlisted : ∀ (call : Call) (left : Prop), call.Listed left →
      f call = call ∨ (f call).outcome? = some (.error .timeout) := by
    rcases hf with rfl | rfl
    · exact fun call left hlisted => .inl (Call.resume_of_empty hlisted.empty)
    · exact fun call left hlisted => hlisted.expire
  have houtcome : ∀ call ∈ c.calls, call.number = number →
      (c.update number f).outcome? number = (f call).outcome? := by
    rintro call hmem rfl
    rw [Client.outcome?, h.numbers.call?_update hnumber hmem, Option.bind_some]
  -- A caller who has an end now is taken out of the table, and so is who shares the id.
  have hends : ∀ o, (c.update number f).outcome? number = some o →
      (({ c.update number f with pending := c.pending.erase number } : Client η).giveUp
        ((c.update number f).sharing number)).Tabled left := by
    refine fun o ho => (h.take number hnumber fun call hmem hcall => ?_).giveUp _
    exact Call.inFlight_of_ended ((houtcome call hmem hcall).symm.trans ho)
  unfold Client.look settleTable
  split
  · split
    · rename_i ho
      exact hends _ ho
    · rename_i ho
      exact hends _ ho
    · -- The caller has no end by now, or a response has ended the call. An entry of the call would
      -- have run out of time, which `hnot` excludes.
      rename_i hnot _
      refine h.of_map (g := fun call => if call.number = number then f call else call) rfl
        (fun call => ?_) (List.Sublist.refl _) (fun call hmem hn hbefore => ?_)
        fun call hmem hflies => ?_
      · split
        · exact hnumber call
        · rfl
      · split
        · rename_i hcall
          rcases hlisted call _ hbefore with hsame | htimeout
          · rw [hsame]
            exact hbefore
          · exact absurd ((houtcome call hmem hcall).trans htimeout) hnot
        · exact hbefore
      · split at hflies
        · exact h.flying call hmem (hflight call hflies)
        · exact h.flying call hmem hflies
  · exact h

/-- A caller goes away: the entry stays, and its number is added to those who have left if the call
was in flight. This is the case that the invariant needs `left` for. -/
theorem Tabled.abandon (h : c.Tabled left) (number : Nat) :
    (c.abandon number).Tabled fun n => left n ∨ n = number ∧ c.inFlight n = true := by
  refine h.of_map (g := fun call => if call.number = number then call.abandon else call) rfl
    (fun call => ?_) (List.Sublist.refl _) (fun call hmem hn hlisted => ?_)
    fun call hmem hflight => ?_
  · split
    · exact call.later_abandon.number
    · rfl
  · split
    · rename_i hcall
      -- It is the one who goes away. Its entry is right only because it is now among those who
      -- left.
      refine hlisted.abandon .inl fun hflight => .inr ⟨hcall, ?_⟩
      rw [Client.inFlight, h.numbers.call?_of_mem hmem, Option.any_some]
      exact hflight
    · exact hlisted.mono .inl
  · split at hflight
    · exact h.flying call hmem (Call.inFlight_of_abandon hflight)
    · exact h.flying call hmem hflight

/-- A payload keeps the table in order. Only a response touches it: the call that it names is filled
and taken out in one step. -/
theorem Tabled.accept (h : c.Tabled left) (payload : List Char) :
    (c.accept payload).Tabled left := by
  unfold Client.accept
  dsimp only
  split
  · unfold acceptResponse
    split
    · rename_i r _ _ number _
      -- The response names a call in flight. It gets its result and leaves the table.
      exact (h.take number (fun call => (call.later_fill r).number)
        fun call _ _ => call.inFlight_fill r).congr rfl rfl
    · exact h.congr rfl rfl
  · unfold acceptNotification
    split
    · exact h.congr rfl rfl
    · exact h.congr rfl rfl
  · unfold acceptRequest
    split
    · exact h.congr rfl rfl
    · exact h.congr rfl rfl
  · exact h.congr rfl rfl

/-- The end of the dispatcher gives up all that are in the table. -/
theorem Tabled.endDispatch (h : c.Tabled left) : c.endDispatch.Tabled left :=
  (h.giveUp c.pending).congr rfl rfl

/-- A look for the next payload keeps the table in order, whatever comes of it: a payload, nothing
yet, or the end of the dispatcher. -/
theorem Tabled.receiveNext (h : c.Tabled left) : c.receiveNext.Tabled left := by
  rcases c.receiveNext_cases with ⟨payload, hpayload⟩ |
    ⟨framing, incoming, connected, notices, heq | heq⟩
  · obtain ⟨framing, incoming, heq⟩ := receiveNext_of_arrives hpayload
    rw [heq]
    refine Tabled.accept ?_ payload
    exact h.congr rfl rfl
  · -- Nothing has arrived, and calls and table are untouched.
    rw [heq]
    exact h.congr rfl rfl
  · -- The dispatcher ends, and the whole table with it.
    rw [heq]
    refine Tabled.endDispatch ?_
    exact h.congr rfl rfl

/-- Every event keeps the table in order. Those who have left are one more if a caller goes away in
flight, and the same as before otherwise. -/
theorem tabled_step (h : c.Tabled left) (e : Event η) :
    (c.step e).Tabled fun n => left n ∨ e = .abandon n ∧ c.inFlight n = true := by
  -- All events but one leave it at those who had left.
  have stay : ∀ after : Client η, after.Tabled left →
      after.Tabled fun n => left n ∨ e = .abandon n ∧ c.inFlight n = true :=
    fun after hafter => hafter.mono fun n => .inl
  cases e with
  | abandon number =>
    refine (h.abandon number).mono fun n => Or.imp_right ?_
    rintro ⟨rfl, hflight⟩
    exact ⟨rfl, hflight⟩
  | request method params shape => exact stay _ (h.request method params shape)
  | notify method params =>
    refine stay _ ?_
    by_cases hended : c.dispatcher = .ended
    · simp only [step, notify, if_pos hended]
      exact h
    · simp only [step, notify, if_neg hended]
      exact h.congr rfl rfl
  | resume number => exact stay _ (h.look number (.inl rfl))
  | expire number => exact stay _ (h.look number (.inr rfl))
  | cancelAll => exact stay _ (h.giveUp c.pending)
  | onNotification => exact stay _ (h.congr rfl rfl)
  | onRequest => exact stay _ (h.congr rfl rfl)
  | sendNext =>
    -- What cannot be sent ends the dispatcher; the rest of sending has nothing to do with calls.
    refine stay c.sendNext ?_
    unfold sendNext
    split
    · split
      · exact h.congr rfl rfl
      · refine Tabled.endDispatch ?_
        exact h.congr rfl rfl
    · exact h
  | receiveNext => exact stay _ h.receiveNext
  | stop =>
    refine stay c.stop ?_
    unfold stop
    split
    · refine Tabled.endDispatch ?_
      exact h.congr rfl rfl
    · exact h
  -- Closing gives up all who wait before it asks the dispatcher to stop.
  | beginClose => exact stay _ ((h.giveUp c.pending).congr rfl rfl)
  | endClose =>
    refine stay _ ?_
    simp only [step]
    split
    · exact h.congr rfl rfl
    · exact h
  | forceClose =>
    refine stay _ ?_
    simp only [step, forceClose]
    split
    · split
      · exact h.congr rfl rfl
      · exact h.congr rfl rfl
    · exact h
  | drop => exact stay _ (h.congr rfl rfl)
  | write => exact stay _ (h.congr rfl rfl)
  | deliver => exact stay _ (h.congr rfl rfl)
  | finish => exact stay _ (h.congr rfl rfl)
  | breakOff => exact stay _ (h.congr rfl rfl)

end Client

open Client

/-! ### Runs -/

/-- In a run, the caller of a number went away while the call was in flight. -/
def Deserted (events : List (Event η)) (n : Nat) : Prop :=
  ∃ before after, events = before ++ .abandon n :: after ∧ (ran before).inFlight n = true

/-- Every run keeps the table in order, and those who have left are the ones who did so in the
run. -/
theorem tabled_run (events : List (Event η)) : (ran events).Tabled (Deserted events) := by
  induction events using List.reverseRecOn with
  | nil => exact ⟨rfl, List.nodup_nil, nofun, nofun⟩
  | append_singleton events e ih =>
    rw [ran, run_concat]
    refine (tabled_step ih e).mono fun n hn => ?_
    rcases hn with ⟨before, after, rfl, hflight⟩ | ⟨rfl, hflight⟩
    · exact ⟨before, after ++ [e], by rw [List.append_assoc, List.cons_append], hflight⟩
    · exact ⟨events, [], rfl, hflight⟩

/-- An id is in flight if a call with that id is. -/
theorem mem_flightIds {c : Client η} {id : Nat} :
    id ∈ c.flightIds ↔ ∃ call ∈ c.calls, call.inFlight = true ∧ wireId call.number = id := by
  simp only [flightIds, List.mem_map, List.mem_filter, and_assoc]

/-- A call that is in flight stands in the table. -/
theorem Client.Tabled.mem_tableIds {c : Client η} {left : Nat → Prop} (h : c.Tabled left) {id : Nat}
    (hid : id ∈ c.flightIds) : id ∈ c.tableIds := by
  obtain ⟨call, hmem, hflight, rfl⟩ := mem_flightIds.mp hid
  exact List.mem_map_of_mem (h.flying call hmem hflight)

/-- An id in the table is that of a call in flight, or of a caller who has left. The second kind is
what makes the table inexact. -/
theorem Client.Tabled.mem_flightIds {c : Client η} {left : Nat → Prop} (h : c.Tabled left)
    {id : Nat} (hid : id ∈ c.tableIds) : id ∈ c.flightIds ∨ ∃ n, wireId n = id ∧ left n := by
  obtain ⟨n, hn, rfl⟩ := List.mem_map.mp hid
  obtain ⟨call, hmem, rfl, hlisted⟩ := h.entries n hn
  rcases hlisted.progress with hprogress | ⟨-, hleft⟩
  · have hflight := Call.inFlight_iff.mpr ⟨hprogress, hlisted.empty⟩
    exact .inl (Rpc.mem_flightIds.mpr ⟨call, hmem, hflight, rfl⟩)
  · exact .inr ⟨call.number, rfl, hleft⟩

/-- When a caller goes away in flight, the table has an id too many: the entry stays, and no other
call in flight has its id, since ids in the table are different. -/
theorem Client.Tabled.not_exact_abandon {c : Client η} {left : Nat → Prop} (h : c.Tabled left)
    {n : Nat} (hflight : c.inFlight n = true) : ¬ (c.abandon n).Exact := by
  intro hexact
  obtain ⟨call, hcall, hcallFlight⟩ : ∃ call, c.call? n = some call ∧ call.inFlight = true := by
    cases hcase : c.call? n with
    | none => exact nomatch (hcase ▸ hflight : (none : Option Call).any Call.inFlight = true)
    | some call => exact ⟨call, rfl, (hcase ▸ hflight : (some call).any Call.inFlight = true)⟩
  obtain ⟨hmem, rfl⟩ := mem_of_call? hcall
  have hn : call.number ∈ c.pending := h.flying call hmem hcallFlight
  obtain ⟨call', hmem', hflight', hid⟩ :=
    Rpc.mem_flightIds.mp ((hexact (wireId call.number)).mp (List.mem_map_of_mem hn))
  -- Who has the id now has the number, and that is who has gone away.
  have hn' := (h.abandon call.number).flying call' hmem' hflight'
  have hnumber : call'.number = call.number := List.inj_on_of_nodup_map h.ids hn' hn hid
  obtain ⟨old, -, rfl⟩ := List.mem_map.mp hmem'
  split at hflight'
  · rw [Call.inFlight_abandon] at hflight'
    exact nomatch hflight'
  · rename_i hne
    rw [if_neg hne] at hnumber
    exact hne hnumber

/-- What holds of the table in a run. -/
structure Accounted (events : List (Event η)) : Prop where
  /-- No id is in the table twice. -/
  once : (ran events).tableIds.Nodup
  /-- A call in flight is in the table. -/
  kept : ∀ id ∈ (ran events).flightIds, id ∈ (ran events).tableIds
  /-- Who else is in the table has gone away in flight. -/
  rest : ∀ id ∈ (ran events).tableIds,
    id ∈ (ran events).flightIds ∨ ∃ n, wireId n = id ∧ Deserted events n
  /-- The table holds the calls in flight and no others, throughout the run, exactly if
  nobody goes away in flight. -/
  exact : (∀ before, before <+: events → (ran before).Exact) ↔ ∀ n, ¬ Deserted events n

/-- Who stands in the table, for every run. If somebody goes away in flight, the moment after it is
the one at which the table is wrong; if nobody does, an entry can only belong to a call in
flight. -/
theorem accounted (events : List (Event η)) : Accounted events := by
  have htabled := tabled_run events
  refine ⟨htabled.ids, fun id => htabled.mem_tableIds, fun id => htabled.mem_flightIds, ?_, ?_⟩
  · -- If somebody leaves in flight, the state right after it is not exact.
    rintro hexact n ⟨before, after, rfl, hflight⟩
    have hfront : before ++ [.abandon n] <+: before ++ .abandon n :: after :=
      ⟨after, by rw [List.append_assoc, List.singleton_append]⟩
    have hafter := hexact _ hfront
    rw [ran, run_concat] at hafter
    exact (tabled_run before).not_exact_abandon hflight hafter
  · -- If nobody does so in the whole run, nobody does before any moment of it.
    rintro hnobody before ⟨after, rfl⟩ id
    refine ⟨fun hid => ?_, (tabled_run before).mem_tableIds⟩
    refine ((tabled_run before).mem_flightIds hid).resolve_right ?_
    rintro ⟨n, -, first, second, rfl, hflight⟩
    exact hnobody n ⟨first, second ++ after, by rw [List.append_assoc, List.cons_append], hflight⟩

/-- A caller asks and goes away: the id stays in the table, and nothing is in flight. Nobody takes
the entry out unless the other end answers. -/
theorem leak_of_abandon :
    (ran [.request "a" none .any, (.abandon 1 : Event Unit)]).tableIds = [1] ∧
      (ran [.request "a" none .any, (.abandon 1 : Event Unit)]).flightIds = [] ∧
      ¬ (ran [.request "a" none .any, (.abandon 1 : Event Unit)]).Exact := by
  have htable : (ran [.request "a" none .any, (.abandon 1 : Event Unit)]).tableIds = [1] := by
    decide
  have hflight : (ran [.request "a" none .any, (.abandon 1 : Event Unit)]).flightIds = [] := by
    decide
  refine ⟨htable, hflight, fun hexact => ?_⟩
  have hid := (hexact 1).mp (htable ▸ List.mem_singleton.mpr rfl)
  rw [hflight] at hid
  exact nomatch hid

end LanguageClient.Rpc
