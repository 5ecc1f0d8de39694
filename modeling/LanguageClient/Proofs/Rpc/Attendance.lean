import LanguageClient.LanguageServer.Run
import LanguageClient.Proofs.Rpc.Loss

/-!
# `LanguageClient.Proofs.Rpc.Attendance`: callers who stay, connections that are gone

Two things that an owner of a client relies on when it lets the client go. A call whose
caller has not gone away has an end as soon as its time is over, whatever was or was not
answered (`Attends.exists_outcome`); and only the caller's own doing sends the caller away.
A connection that is gone (`Gone`) does not come back.

What lasts of a call is kept by all that can come of it (`Lasts`), so it holds of the call of a
number as long as its caller stays (`Keeps.ambient`).
-/

set_option autoImplicit false

namespace LanguageClient.Rpc

/-! ### Calls that somebody waits for -/

namespace Call

/-- Giving a call up concerns the mailbox. The caller finds out only by looking. -/
theorem progress_giveUp (c : Call) : c.giveUp.progress = c.progress := by
  unfold giveUp
  split <;> rfl

/-- An answer concerns the mailbox. Its caller has no end before looking there. -/
theorem progress_fill (r : Response) (c : Call) : (c.fill r).progress = c.progress := by
  unfold fill
  split <;> rfl

/-- The end of a call depends on what its caller does, and on nothing else. -/
theorem outcome?_congr {c c' : Call} (h : c'.progress = c.progress) :
    c'.outcome? = c.outcome? := by
  rw [outcome?, h, outcome?]

/-- A caller who looks does not go away: whatever the look finds, it is the caller who finds it. -/
theorem resume_ne_abandoned {c : Call} (h : c.progress ≠ .abandoned) :
    c.resume.progress ≠ .abandoned := by
  unfold resume
  split
  · split
    · exact h
    · exact nofun
    · exact nofun
  · exact h

/-- A caller whose time is over does not go away. The timeout is an end that the caller is told
of. -/
theorem expire_ne_abandoned {c : Call} (h : c.progress ≠ .abandoned) :
    c.expire.progress ≠ .abandoned := by
  unfold expire
  split
  · exact nofun
  · exact resume_ne_abandoned h

/-- What lasts of a call, whatever comes for it and however often its caller looks. -/
structure Lasts (P : Call → Prop) : Prop where
  giveUp : ∀ call, P call → P call.giveUp
  fill : ∀ call r, P call → P (call.fill r)
  resume : ∀ call, P call → P call.resume
  expire : ∀ call, P call → P call.expire

/-- That the caller is there lasts: nothing but the caller's own going away ends it. -/
theorem lasts_present : Lasts fun call => call.progress ≠ .abandoned where
  giveUp call h := by rwa [call.progress_giveUp]
  fill call r h := by rwa [call.progress_fill]
  resume _ := resume_ne_abandoned
  expire _ := expire_ne_abandoned

/-- The shape that the caller asked for lasts. It was fixed when the call was made. -/
theorem lasts_shape (shape : Shape) : Lasts fun call => call.shape = shape where
  giveUp call h := call.later_giveUp.shape.trans h
  fill call r h := (call.later_fill r).shape.trans h
  resume call h := call.later_resume.shape.trans h
  expire call h := call.later_expire.shape.trans h

/-- What lasts of a call may be put together. -/
theorem Lasts.and {P Q : Call → Prop} (hp : Lasts P) (hq : Lasts Q) :
    Lasts fun call => P call ∧ Q call where
  giveUp call h := ⟨hp.giveUp call h.1, hq.giveUp call h.2⟩
  fill call r h := ⟨hp.fill call r h.1, hq.fill call r h.2⟩
  resume call h := ⟨hp.resume call h.1, hq.resume call h.2⟩
  expire call h := ⟨hp.expire call h.1, hq.expire call h.2⟩

/-- The time of a caller who does not wait any more means nothing. -/
theorem expire_of_not_waiting {c : Call} (h : c.isWaiting = false) : c.expire = c := by
  unfold expire
  rw [if_neg fun hboth => Bool.false_ne_true (h.symm.trans hboth.1)]
  exact resume_of_not_waiting h

/-- Whoever waits until the time is over has an end then: what the mailbox holds, if anything, and
else that the time is over. -/
theorem exists_outcome_expire {c : Call} (h : c.progress ≠ .abandoned) :
    ∃ o, c.expire.outcome? = some o := by
  cases hprogress : c.progress with
  | abandoned => exact absurd hprogress h
  | ended o =>
    have hidle : c.isWaiting = false := by rw [isWaiting, hprogress]
    exact ⟨o, by rw [expire_of_not_waiting hidle, outcome?_eq_some, hprogress]⟩
  | waiting =>
    have hwaits : c.isWaiting = true := isWaiting_iff.mpr hprogress
    unfold expire
    split
    · exact ⟨.error .timeout, rfl⟩
    · -- The mailbox has something, since the caller waits and the time did not end the call.
      rename_i hnot
      unfold resume
      rw [if_pos hwaits]
      split
      · rename_i hempty
        exact absurd ⟨hwaits, hempty⟩ hnot
      · exact ⟨_, rfl⟩
      · exact ⟨_, rfl⟩

end Call

variable {η : Type} {c after : Client η}

open Client

/-- Something holds of the call of a number. -/
def Client.Keeps (c : Client η) (P : Call → Prop) (n : Nat) : Prop :=
  ∃ call, c.call? n = some call ∧ P call

/-- The caller of a number has not gone away. -/
def Client.Attends (c : Client η) (n : Nat) : Prop :=
  ∃ call, c.call? n = some call ∧ call.progress ≠ .abandoned

section

variable {P : Call → Prop} {n : Nat}

/-- A step that changes each call for itself keeps what lasts: the call is found under its number
again. -/
theorem Client.Keeps.of_map (h : c.Keeps P n) {g : Call → Call}
    (hcalls : after.calls = c.calls.map g) (hnumber : ∀ call, (g call).number = call.number)
    (hlasts : ∀ call, P call → P (g call)) : after.Keeps P n := by
  obtain ⟨call, hcall, hholds⟩ := h
  have hfind : (c.calls.find? fun call => call.number = n) = some call := hcall
  refine ⟨g call, ?_, hlasts call hholds⟩
  rw [call?, hcalls, find?_map_number (fun call _ => hnumber call), hfind, Option.map_some]

/-- Only the calls count for what is kept of one of them. -/
theorem Client.Keeps.congr (h : c.Keeps P n) (hcalls : after.calls = c.calls) :
    after.Keeps P n :=
  h.of_map (g := id) (by rw [hcalls, List.map_id]) (fun _ => rfl) fun _ => id

/-- Giving calls up keeps what lasts, for those given up and for the others. The former are told
through their mailboxes, and whatever lasts is kept by that. -/
theorem Client.Keeps.giveUp (hP : Call.Lasts P) (h : c.Keeps P n) (numbers : List Nat) :
    (c.giveUp numbers).Keeps P n := by
  refine h.of_map rfl (fun call => ?_) fun call hholds => ?_
  · split
    · exact call.later_giveUp.number
    · rfl
  · split
    · exact hP.giveUp call hholds
    · exact hholds

/-- A change of one call keeps what lasts if the change does so. The other calls stay as they are,
and all keep their numbers, so the call with number `n` is still the one that it was. -/
theorem Client.Keeps.update (h : c.Keeps P n) (number : Nat) {f : Call → Call}
    (hnumber : ∀ call, (f call).number = call.number) (hlasts : ∀ call, P call → P (f call)) :
    (c.update number f).Keeps P n := by
  refine h.of_map rfl (fun call => ?_) fun call hholds => ?_
  · split
    · exact hnumber call
    · rfl
  · split
    · exact hlasts call hholds
    · exact hholds

/-- A look of any caller keeps what lasts. If an end without a response takes the number out of the
table, others with its id are given up, and that keeps it as well. -/
theorem Client.Keeps.look (hP : Call.Lasts P) (h : c.Keeps P n) (number : Nat) {f : Call → Call}
    (hnumber : ∀ call, (f call).number = call.number) (hlasts : ∀ call, P call → P (f call)) :
    (c.look number f).Keeps P n := by
  unfold Client.look settleTable
  have hlooked : (c.update number f).Keeps P n := h.update number hnumber hlasts
  split
  · split
    · exact Keeps.giveUp hP (hlooked.congr rfl) _
    · exact Keeps.giveUp hP (hlooked.congr rfl) _
    · exact hlooked
  · exact h

/-- The look of a caller who has been woken keeps what lasts. -/
theorem Client.Keeps.resume (hP : Call.Lasts P) (h : c.Keeps P n) (number : Nat) :
    (c.resume number).Keeps P n :=
  h.look hP number (fun call => call.later_resume.number) hP.resume

/-- The look of a caller whose time is over keeps what lasts. -/
theorem Client.Keeps.expire (hP : Call.Lasts P) (h : c.Keeps P n) (number : Nat) :
    (c.expire number).Keeps P n :=
  h.look hP number (fun call => call.later_expire.number) hP.expire

/-- What happens by itself sends no caller away, and keeps whatever else lasts of a call. The owner
of a client that goes on by itself relies on this to find its own calls again. -/
theorem Client.Keeps.ambient (hP : Call.Lasts P) (h : c.Keeps P n) {e : Event η}
    (hambient : e.isAmbient = true) : (c.step e).Keeps P n := by
  cases e with
  | sendNext =>
    show c.sendNext.Keeps P n
    unfold sendNext
    split
    · split
      · exact h.congr rfl
      · exact (h.giveUp hP c.pending).congr rfl
    · exact h
  | receiveNext =>
    -- A payload that arrives may fill a mailbox, and a look that ends the dispatcher gives all of
    -- them up.
    show c.receiveNext.Keeps P n
    rcases c.receiveNext_cases with ⟨payload, hpayload⟩ |
      ⟨framing, incoming, connected, notices, heq | heq⟩
    · obtain ⟨framing, incoming, heq⟩ := receiveNext_of_arrives hpayload
      rw [heq]
      unfold accept
      dsimp only
      split
      · -- Of all messages only a response that is awaited fills a call.
        unfold acceptResponse
        split
        · rename_i r _ _ number _
          exact (h.update number (fun call => (call.later_fill r).number)
            fun call => hP.fill call r).congr rfl
        · exact h.congr rfl
      · unfold acceptNotification
        split <;> exact h.congr rfl
      · unfold acceptRequest
        split <;> exact h.congr rfl
      · exact h.congr rfl
    · rw [heq]
      exact h.congr rfl
    · rw [heq]
      exact (h.giveUp hP c.pending).congr rfl
  | stop =>
    show c.stop.Keeps P n
    unfold stop
    split
    · exact (h.giveUp hP c.pending).congr rfl
    · exact h
  | write | deliver | finish | breakOff => exact h.congr rfl
  | _ => exact nomatch hambient

/-- A look of a caller sends nobody away. -/
theorem Client.Attends.resume (h : c.Attends n) (number : Nat) : (c.resume number).Attends n :=
  Keeps.resume Call.lasts_present h number

/-- Nothing that happens by itself sends a caller away. -/
theorem Client.Attends.ambient (h : c.Attends n) {e : Event η} (hambient : e.isAmbient = true) :
    (c.step e).Attends n :=
  Keeps.ambient Call.lasts_present h hambient

end

/-- Giving calls up changes nobody's end: it is put into mailboxes, and callers find it later. So
whoever has an outcome has the same one afterwards, and whoever has none has none yet. -/
theorem outcome?_giveUp (c : Client η) (numbers : List Nat) (n : Nat) :
    (c.giveUp numbers).outcome? n = c.outcome? n := by
  have hnumber : ∀ call ∈ c.calls,
      (if call.number ∈ numbers then call.giveUp else call).number = call.number := by
    intro call _
    split
    · exact call.later_giveUp.number
    · rfl
  rw [outcome?, call?, Client.giveUp, find?_map_number hnumber, Option.bind_map, outcome?, call?]
  refine congrArg _ (funext fun call => ?_)
  show Call.outcome? (if call.number ∈ numbers then call.giveUp else call) = _
  split
  · exact Call.outcome?_congr call.progress_giveUp
  · rfl

/-- Taking a number out of the table changes nobody's end. Those who share its id are given up, and
find that out by looking. -/
theorem outcome?_settleTable (c : Client η) (number n : Nat) :
    (c.settleTable number).outcome? n = c.outcome? n := by
  unfold settleTable
  split
  · exact outcome?_giveUp _ _ n
  · exact outcome?_giveUp _ _ n
  · rfl

/-- A caller who runs out of time has an end then. Together with `Keeps.ambient` this is why every
call with a timeout ends, whatever the other end does. -/
theorem Client.Attends.exists_outcome {n : Nat} (h : c.Attends n) :
    ∃ o, (c.expire n).outcome? n = some o := by
  obtain ⟨call, hcall, hprogress⟩ := h
  obtain ⟨o, ho⟩ := Call.exists_outcome_expire hprogress
  refine ⟨o, ?_⟩
  have hchanged : (c.update n Call.expire).outcome? n = call.expire.outcome? := by
    rw [outcome?, call?_update_of (fun call => call.later_expire.number) n hcall,
      if_pos (mem_of_call? hcall).2, Option.bind_some]
  unfold Client.expire look
  split
  · rw [outcome?_settleTable, hchanged, ho]
  · -- Who does not wait has an end already, and the time does not matter.
    rename_i hnot
    have hidle : call.isWaiting = false := by
      rw [hcall, Option.any_some] at hnot
      exact Bool.eq_false_iff.mpr hnot
    rw [outcome?, hcall, Option.bind_some, ← Call.expire_of_not_waiting hidle, ho]

/-- A request has the number after those of all calls before it. -/
theorem number_request (c : Client η) (method : String) (params : Option Json) (shape : Shape) :
    (c.request method params shape).1 = c.calls.length + 1 := by
  unfold Client.request
  dsimp only
  split <;> rfl

/-- The call that a request makes: it waits, or has failed if nothing can be sent. It is found under
its number even if the counter has gone round and others with its id were given up. -/
theorem call?_request (h : c.Numbered) (method : String) (params : Option Json) (shape : Shape) :
    (c.request method params shape).2.call? (c.request method params shape).1 =
      some
        { number := c.calls.length + 1
          shape
          progress :=
            if c.dispatcher = .ended then .ended (.error .disconnected) else .waiting } := by
  -- Whoever had the id before is given up first. This changes how the calls stand, and not their
  -- numbers.
  have hgiven : (c.giveUp (c.sharing (c.calls.length + 1))).Numbered := by
    refine h.of_map rfl fun call _ => ?_
    split
    · exact call.later_giveUp.number
    · rfl
  have hlength := length_giveUp c (c.sharing (c.calls.length + 1))
  -- The fresh call is the only one with its number, so it is the one that is found.
  have hfound : ∀ {after : Client η} {fresh : Call},
      after.calls = (c.giveUp (c.sharing (c.calls.length + 1))).calls ++ [fresh] →
      fresh.number = c.calls.length + 1 → after.call? (c.calls.length + 1) = some fresh := by
    intro after fresh hcalls hnumber
    have hnumbers := hgiven.of_concat hcalls (hlength.symm ▸ hnumber)
    have hmem : fresh ∈ after.calls :=
      hcalls ▸ List.mem_append_right _ (List.mem_singleton.mpr rfl)
    exact hnumber ▸ hnumbers.call?_of_mem hmem
  unfold Client.request
  dsimp only
  split
  · rename_i hended
    rw [if_pos (show c.dispatcher = .ended from hended)]
    exact hfound rfl rfl
  · rename_i hnot
    rw [if_neg (show ¬ c.dispatcher = .ended from hnot)]
    exact hfound rfl rfl

/-- Whoever has just made a call has not gone away, and asks for what was to be asked. From here on
`Keeps.ambient` carries both along. -/
theorem keeps_request (h : c.Numbered) (method : String) (params : Option Json) (shape : Shape) :
    (c.request method params shape).2.Keeps
      (fun call => call.progress ≠ .abandoned ∧ call.shape = shape)
      (c.request method params shape).1 := by
  refine ⟨_, call?_request h method params shape, ?_, rfl⟩
  dsimp only
  split <;> exact nofun

/-- A request over a connection that is lost fails at once. -/
theorem outcome?_request_of_ended (h : c.Numbered) (hended : c.dispatcher = .ended)
    (method : String) (params : Option Json) (shape : Shape) :
    (c.request method params shape).2.outcome? (c.request method params shape).1 =
      some (.error .disconnected) := by
  rw [outcome?, call?_request h, if_pos hended]
  rfl

/-- Whoever has just made a call is there to wait for its end. -/
theorem attends_request (h : c.Numbered) (method : String) (params : Option Json)
    (shape : Shape) :
    (c.request method params shape).2.Attends (c.request method params shape).1 := by
  obtain ⟨call, hcall, hpresent, -⟩ := keeps_request h method params shape
  exact ⟨call, hcall, hpresent⟩

/-! ### Connections that are gone -/

/-- Nothing is moved any more, and the stream is closed. -/
structure Client.Gone (c : Client η) : Prop where
  dispatcher : c.dispatcher = .ended
  isOpen : c.stream.isOpen = false

/-- A connection that is gone does not come back. An ended dispatcher does not begin again, and no
event opens a stream that has been closed. -/
theorem Client.Gone.step (h : c.Gone) (e : Event η) : (c.step e).Gone := by
  have hnot : ∀ {P : Prop}, c.dispatcher = .running → P :=
    fun hrunning => nomatch hrunning.symm.trans h.dispatcher
  have hcourse := course_step c e
  refine ⟨hcourse.ended h.dispatcher, ?_⟩
  generalize c.step e = after at hcourse ⊢
  cases hcourse with
  -- What neither ends the dispatcher nor moves anything leaves the stream as open as it was.
  | goesOn dispatcher accepted outbound received stream => exact stream.isOpen.trans h.isOpen
  | writes refusal event state =>
    rw [state]
    exact (c.stream.write_owner refusal).2.trans h.isOpen
  -- The courses of a running dispatcher are out of the question.
  | moves m rest event running => exact hnot running
  | fails notices event running => exact hnot running
  | loses framing incoming connected notices event running => exact hnot running
  | stops event running => exact hnot running
  | cuts notices event state =>
    rw [state]
    rfl
  | closes event ended stopping state =>
    rw [state]
    rfl

/-- A client that is closed by force is gone, whether or not its dispatcher had ended by itself.
This is how a close whose time is over comes to an end. -/
theorem gone_forceClose (c : Client η) : c.forceClose.Gone := by
  unfold forceClose
  split
  · exact ⟨rfl, rfl⟩
  · rename_i hnot
    cases hdispatcher : c.dispatcher with
    | running => exact absurd hdispatcher hnot
    | ended => exact ⟨hdispatcher, rfl⟩

end LanguageClient.Rpc
