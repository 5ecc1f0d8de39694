import LanguageClient.Proofs.LanguageServer.Farewell
import LanguageClient.Proofs.Rpc.Attendance
import LanguageClient.Proofs.Rpc.Classification

/-!
# `LanguageClient.Proofs.LanguageServer.Release`: closing lets the connection go

A client may be closed in every state that it can come to (`Reached`), and the server may answer
to `shutdown` what it likes, or nothing, or hang up. Closing has two parts: the client asks for
leave, if it is due to, and then waits for the dispatcher to end (`Releasing`). What comes of the
first part (`Parts`) decides the answer alone; the second part comes to the same end after each
of them (`Released`), and nothing of the client moves any more (`Spent`).

Each part waits no longer than its time. `Releasing` counts how often the time may still be over.

* `Releases.step`, `releases_awaitEnd`: closing goes on with each event, and so with a run.
* `Spent.step`: a client that was let go stays so, whatever is asked of it.
* `close_releases`: what closing comes to.
-/

set_option autoImplicit false

namespace LanguageClient

namespace Rpc

variable {η : Type} {c : Client η}

/-- Whether a step is taken by those who may use a connection beside its owner. -/
def Event.isShared : Event η → Bool
  | .request .. | .notify .. | .resume _ | .expire _ | .abandon _ | .cancelAll => true
  | .onNotification .. | .onRequest _ => true
  | _ => false

/-- An end lasts: nothing that happens to a call that has ended changes its outcome. -/
theorem Call.lasts_ended (o : Outcome) : Call.Lasts fun call => call.progress = .ended o where
  giveUp call h := (call.progress_giveUp).trans h
  fill call r h := (call.progress_fill r).trans h
  resume call h := call.later_resume.progress o h
  expire call h := call.later_expire.progress o h

/-- A call has an end exactly if it is in the table of calls with that end. -/
theorem outcome?_eq_some_iff_keeps {n : Nat} {o : Outcome} :
    c.outcome? n = some o ↔ c.Keeps (fun call => call.progress = .ended o) n := by
  rw [Client.outcome?, Option.bind_eq_some_iff]
  exact exists_congr fun call => and_congr_right fun _ => Call.outcome?_eq_some

/-- A call that has an end keeps it, whatever happens by itself. -/
theorem outcome?_ambient {n : Nat} {o : Outcome} (h : c.outcome? n = some o) {e : Event η}
    (hambient : e.isAmbient = true) : (c.step e).outcome? n = some o := by
  rw [outcome?_eq_some_iff_keeps] at h ⊢
  exact h.ambient (Call.lasts_ended o) hambient

/-- Only a request comes into the table. Everything else that can happen takes entries out of it, or
leaves them. -/
theorem pending_step_subset (c : Client η) {e : Event η} (h : e.isRequest = false) :
    (c.step e).pending ⊆ c.pending := by
  have hcourse := course_step c e
  -- The courses that end the dispatcher give up everybody, which empties the table.
  have hgiven : ∀ after : Client η, after.pending ⊆ c.pending →
      after.endDispatch.pending ⊆ c.pending :=
    fun after hafter => List.Subset.trans List.filter_sublist.subset hafter
  generalize c.step e = after at hcourse ⊢
  cases hcourse with
  | goesOn dispatcher accepted outbound received stream pending => exact pending h
  | writes refusal event state => exact state ▸ List.Subset.refl _
  | moves m rest event running outbound takes state => exact state ▸ List.Subset.refl _
  | fails notices event running refuses state =>
    exact state ▸ hgiven _ (List.Subset.refl _)
  | loses framing incoming connected notices event running nothing state =>
    exact state ▸ hgiven _ (List.Subset.refl _)
  | stops event running stopping state => exact state ▸ hgiven _ (List.Subset.refl _)
  | cuts notices event state => exact state ▸ List.Subset.refl _
  | closes event ended stopping state => exact state ▸ List.Subset.refl _

/-- Once nobody waits in the table, nobody comes into it by itself. -/
theorem pending_ambient (h : c.pending = []) {e : Event η} (hambient : e.isAmbient = true) :
    (c.step e).pending = [] := by
  have hrequest : e.isRequest = false := by
    cases e with
    | request => exact nomatch hambient
    | _ => rfl
  exact List.eq_nil_of_subset_nil (h ▸ pending_step_subset c hrequest)

/-- Once the dispatcher has ended, no event puts anything into the table. This holds of a request
too, which is answered before it gets there. -/
theorem pending_step_of_ended (hended : c.dispatcher = .ended) (e : Event η) :
    (c.step e).pending ⊆ c.pending := by
  cases hrequest : e.isRequest with
  | false => exact pending_step_subset c hrequest
  | true =>
    cases e with
    | request method params shape =>
      show (c.request method params shape).2.pending ⊆ c.pending
      have hgiven : (c.giveUp (c.sharing (c.calls.length + 1))).dispatcher = .ended := hended
      simp only [Client.request, if_pos hgiven]
      exact List.filter_sublist.subset
    | _ => cases hrequest

end Rpc

namespace LanguageServer

open Rpc (Utterance utterances)

variable {η : Type} {c now after : Client η}

/-! ### Clients -/

/-- The states that a client can come to. Its owner asks it for anything, and so do others who
use its connection while no operation is under way; and whoever waits for an answer may go
away. -/
inductive Reached : Client η → Prop where
  | new (identity : Identity) (processId : Nat) : Reached { identity, processId }
  | asked {c : Client η} (h : Reached c) (e : Event η) : Reached (c.step e).2
  | shared {c : Client η} (h : Reached c) (idle : c.activity = .idle) {e : Rpc.Event η}
      (shared : e.isShared = true) : Reached { c with rpc := c.rpc.step e }
  | left {c : Client η} (h : Reached c) {call : Nat} (awaits : c.awaited? = some call) :
      Reached { c with rpc := c.rpc.step (.abandon call), activity := .idle }

/-- A client that can be reached waits for its dispatcher only after it has asked it to end. -/
theorem Reached.patient (h : Reached c) : c.Patient := by
  induction h with
  | new => exact nofun
  | asked h e ih => exact patient_step ih e
  | shared h idle => exact fun result hclosing => nomatch idle.symm.trans hclosing
  | left => exact nofun

/-- What happens to the connection of a client is a run of it. So all that is known of runs of a
connection holds in every state that a client can come to. -/
theorem Reached.exists_ran (h : Reached c) : ∃ events, c.rpc = Rpc.ran events := by
  -- Each of the three ways to go on is a run of the connection from where it is.
  have hgoesOn : ∀ {rpc : Rpc.Client η} {events : List (Rpc.Event η)} (more),
      rpc = Rpc.ran events → rpc.run more = Rpc.ran (events ++ more) := by
    rintro _ events more rfl
    exact (Rpc.run_append {} events more).symm
  induction h with
  | new => exact ⟨[], rfl⟩
  | @asked c h e ih =>
    obtain ⟨events, hran⟩ := ih
    obtain ⟨more, hrun⟩ := exists_run_step h.patient e
    exact ⟨_, hrun.trans (hgoesOn more hran)⟩
  | @shared c h idle e shared ih =>
    obtain ⟨events, hran⟩ := ih
    exact ⟨_, hgoesOn [e] hran⟩
  | @left c h call awaits ih =>
    obtain ⟨events, hran⟩ := ih
    exact ⟨_, hgoesOn [.abandon call] hran⟩

/-- A client that runs on stays within the states that can be reached. -/
theorem Reached.run (h : Reached c) (events : List (Event η)) : Reached (c.run events).2 := by
  induction events using List.reverseRecOn with
  | nil => exact h
  | append_singleton events e ih => exact run_concat c events e ▸ ih.asked e

/-- The calls of a client in a state that can be reached are numbered in order. -/
theorem Reached.numbered (h : Reached c) : c.rpc.Numbered := by
  obtain ⟨events, hran⟩ := h.exists_ran
  exact hran ▸ (Rpc.tabled_run events).numbers

/-- The outcomes of a client in a state that can be reached come from responses that were
received. -/
theorem Reached.backed (h : Reached c) : c.rpc.Backed := by
  obtain ⟨events, hran⟩ := h.exists_ran
  exact hran ▸ Rpc.backed_run events

/-- An operation under way goes on with events until it ends. -/
def Client.awaitEnd : Option Answer × Client η → List (Event η) → Option Answer × Client η
  | progress, [] => progress
  | (some answer, c), _ :: _ => (some answer, c)
  | (none, c), e :: events => awaitEnd (c.step e) events

/-- Whether an event is the end of a time. -/
def Event.isExpire : Event η → Bool
  | .expire => true
  | _ => false

/-! ### Asking for leave -/

/-- The number of the next call of a client. -/
def Client.nextCall (c : Client η) : Nat := c.rpc.calls.length + 1

/-- The words with which a client asks for leave, if they can be sent. -/
def Client.asking (c : Client η) : List Utterance :=
  if c.rpc.dispatcher = .running then
    [.request (.nat (Rpc.Client.wireId c.nextCall)) "shutdown"]
  else []

/-- The server has acknowledged a call: a response to it has come that is no error and has no
result, or `null`. -/
def Client.Acknowledged (c : Client η) (call : Nat) : Prop :=
  ∃ r, Rpc.AnswerAmong c.rpc.received call r ∧ r.error = none ∧ ∀ v ∈ r.result, v = .null

/-- What has come of asking for leave, by the result of it. -/
inductive Parts (c now : Client η) : Except Failure Unit → Prop where
  /-- It was not due. -/
  | notDue (new : c.initialized = false) (said : now.speech = c.speech) : Parts c now (.ok ())
  /-- The server agrees and is told to exit. -/
  | agreed (due : c.initialized = true) (acknowledged : now.Acknowledged c.nextCall)
      (said : now.speech = c.speech ++ c.asking ++ [.notification "exit"]) : Parts c now (.ok ())
  /-- The server agrees, but by then nothing can be sent. -/
  | unheard (due : c.initialized = true) (acknowledged : now.Acknowledged c.nextCall)
      (said : now.speech = c.speech ++ c.asking) : Parts c now (.error (.call .disconnected))
  /-- The server does not agree, or does not answer. -/
  | refused (due : c.initialized = true) (e : Rpc.CallError)
      (outcome : now.rpc.outcome? c.nextCall = some (.error e))
      (said : now.speech = c.speech ++ c.asking) :
      Parts c now (.error (.ofCall "shutdown" e))

/-- Only what was said, what has come, and the ends of calls count. So the second part of closing,
which changes none of them, keeps what has come of the first. -/
theorem Parts.mono {result : Except Failure Unit} (h : Parts c now result)
    (hsaid : after.speech = now.speech) (hreceived : now.rpc.received ⊆ after.rpc.received)
    (houtcome : ∀ o, now.rpc.outcome? c.nextCall = some o →
      after.rpc.outcome? c.nextCall = some o) : Parts c after result := by
  have hheard : now.Acknowledged c.nextCall → after.Acknowledged c.nextCall := by
    rintro ⟨r, hanswer, hgood⟩
    exact ⟨r, hanswer.mono hreceived, hgood⟩
  cases h with
  | notDue new said => exact .notDue new (hsaid.trans said)
  | agreed due acknowledged said => exact .agreed due (hheard acknowledged) (hsaid.trans said)
  | unheard due acknowledged said => exact .unheard due (hheard acknowledged) (hsaid.trans said)
  | refused due e outcome said => exact .refused due e (houtcome _ outcome) (hsaid.trans said)

/-- What has come of asking for leave is not changed by what happens by itself. -/
theorem Parts.ambient {result : Except Failure Unit} (h : Parts c now result) {e : Rpc.Event η}
    (hambient : e.isAmbient = true) : Parts c { now with rpc := now.rpc.step e } result :=
  h.mono (Rpc.utterances_quiet now.rpc (Rpc.directs_of_isAmbient hambient))
    (Rpc.advance_step now.rpc e).received.subset fun _ ho => Rpc.outcome?_ambient ho hambient

/-! ### Closing -/

/-- A client that closes, and how often its time may still be over. -/
inductive Releasing (c : Client η) (patience : Nat) (now : Client η) : Prop where
  /-- It waits for the answer to `shutdown`. -/
  | asks (activity : now.activity = .shuttingDown c.nextCall true) (due : c.initialized = true)
      (new : now.initialized = false) (backed : now.rpc.Backed)
      (call : now.rpc.Keeps (fun call => call.progress ≠ .abandoned ∧ call.shape = .unit)
        c.nextCall)
      (said : now.speech = c.speech ++ c.asking) (patient : 2 ≤ patience)
  /-- It waits for the dispatcher to end. -/
  | drains (result : Except Failure Unit) (activity : now.activity = .closing result)
      (new : now.initialized = false) (stopping : now.rpc.stopping = true)
      (pending : now.rpc.pending = []) (parts : Parts c now result) (patient : 1 ≤ patience)

/-- A client that does nothing more. -/
structure Spent (c : Client η) : Prop where
  new : c.initialized = false
  idle : c.activity = .idle
  gone : c.rpc.Gone
  pending : c.rpc.pending = []

/-- A client that was closed, and the answer to it. -/
structure Released (c : Client η) (answer : Answer) (after : Client η) : Prop where
  spent : Spent after
  result : ∃ result, Parts c after result ∧ answer = .ofResult result

/-- What going on with closing comes to. -/
inductive Releases (c : Client η) (patience : Nat) : Option Answer × Client η → Prop where
  | waits {now : Client η} (releasing : Releasing c patience now) : Releases c patience (none, now)
  | ends {answer : Answer} {after : Client η} (released : Released c answer after) :
      Releases c patience (some answer, after)

variable {patience : Nat} {result : Except Failure Unit}

/-- Once the dispatcher has ended, closing ends with the result that was kept; until then it waits.
Nobody waits in the table in either case. -/
theorem releases_finishClose (hactivity : now.activity = .closing result)
    (hnew : now.initialized = false) (hstopping : now.rpc.stopping = true)
    (hpending : now.rpc.pending = []) (hparts : Parts c now result) (hpatient : 1 ≤ patience) :
    Releases c patience (now.finishClose result) := by
  unfold Client.finishClose
  split
  · rename_i hended
    refine .ends ⟨⟨hnew, rfl, ⟨hended, rfl⟩, hpending⟩, result, ?_, rfl⟩
    exact hparts.mono rfl (List.Subset.refl _) fun _ => id
  · exact .waits (.drains result hactivity hnew hstopping hpending hparts hpatient)

/-- Whatever came of asking for leave, the connection is closed. From here on all ways are one. -/
theorem releases_beginClose (hnew : now.initialized = false) (hparts : Parts c now result)
    (hpatient : 1 ≤ patience) :
    Releases c patience ((now.beginClose result).finishClose result) := by
  refine releases_finishClose rfl hnew rfl now.rpc.pending_giveUp_pending ?_ hpatient
  refine hparts.mono rfl (List.Subset.refl _) fun o ho => ?_
  show (now.rpc.giveUp now.rpc.pending).outcome? c.nextCall = some o
  rw [Rpc.outcome?_giveUp, ho]

/-- A call that ends well was acknowledged. Its outcome is backed by a response, and the form that
the client expects of it allows for no other result. -/
theorem acknowledged_of_outcome {n : Nat} (hbacked : now.rpc.Backed)
    (hcall : now.rpc.Keeps (fun call => call.progress ≠ .abandoned ∧ call.shape = .unit) n)
    {v : Json} (houtcome : now.rpc.outcome? n = some (.ok v)) : now.Acknowledged n := by
  obtain ⟨call, hfound, -, hshape⟩ := hcall
  rw [Rpc.Client.outcome?, hfound, Option.bind_some, Rpc.Call.outcome?_eq_some] at houtcome
  obtain ⟨hmem, hnumber⟩ := Rpc.Client.mem_of_call? hfound
  obtain ⟨r, hanswer, heq⟩ := (hbacked call hmem).progress _ houtcome rfl
  rw [hnumber] at hanswer
  refine ⟨r, hanswer, ?_⟩
  rw [hshape, Rpc.Response.outcome] at heq
  cases herror : r.error with
  | some e => simp [herror] at heq
  | none =>
    refine ⟨rfl, fun w hw => ?_⟩
    rw [Option.mem_def] at hw
    -- A result of another form would have been a mismatch.
    by_cases hnull : w = .null
    · exact hnull
    · simp [herror, hw, Shape.read, hnull] at heq

/-- Once the call has an end, closing goes on; if the end is good, the server is told to exit. The
three ways are those of `Parts`. -/
theorem releases_of_outcome (hactivity : now.activity = .shuttingDown c.nextCall true)
    (hdue : c.initialized = true) (hnew : now.initialized = false) (hbacked : now.rpc.Backed)
    (hcall : now.rpc.Keeps (fun call => call.progress ≠ .abandoned ∧ call.shape = .unit)
      c.nextCall)
    (hsaid : now.speech = c.speech ++ c.asking) {o : Rpc.Outcome}
    (houtcome : now.rpc.outcome? c.nextCall = some o) (hpatient : 1 ≤ patience) :
    Releases c patience now.proceed := by
  unfold Client.proceed
  rw [hactivity]
  dsimp only
  rw [houtcome]
  cases o with
  -- The server refuses, or has not answered in time.
  | error e => exact releases_beginClose hnew (.refused hdue e houtcome hsaid) hpatient
  | ok v =>
    have hheard := acknowledged_of_outcome hbacked hcall houtcome
    dsimp only [Client.afterShutdown]
    rw [Client.notify_eq]
    by_cases hended : now.rpc.dispatcher = .ended
    · -- It agrees, but nothing can be sent any more.
      rw [if_pos hended]
      exact releases_beginClose hnew (.unheard hdue hheard hsaid) hpatient
    · -- It agrees, and is told.
      rw [if_neg hended]
      refine releases_beginClose hnew (.agreed hdue hheard ?_) hpatient
      rw [← hsaid]
      exact Rpc.utterances_append _ _

/-- Going on ends a wait, or leaves the client in it. A client that drains has ended when its
dispatcher has; one that asks goes on when its call has an outcome. -/
theorem Releasing.proceed (h : Releasing c patience now) : Releases c patience now.proceed := by
  cases h with
  | drains result activity new stopping pending parts patient =>
    unfold Client.proceed
    rw [activity]
    exact releases_finishClose activity new stopping pending parts patient
  | asks activity due new backed call said patient =>
    cases houtcome : now.rpc.outcome? c.nextCall with
    | some o =>
      exact releases_of_outcome activity due new backed call said houtcome
        (Nat.le_of_succ_le patient)
    | none =>
      -- Without an outcome going on changes nothing, and the client asks as before.
      have hwaits : now.proceed = (none, now) := by
        unfold Client.proceed
        rw [activity]
        dsimp only
        rw [houtcome]
      rw [hwaits]
      exact .waits (.asks activity due new backed call said patient)

/-- What a caller who waits for the answer to `shutdown` relies on: it has not gone away itself, and
the form it expects stays the same. -/
theorem lasts_asking : Rpc.Call.Lasts fun call => call.progress ≠ .abandoned ∧ call.shape = .unit :=
  Rpc.Call.lasts_present.and (Rpc.Call.lasts_shape .unit)

/-- Looking for the answer changes only the call that is waited for, and then the client goes on. A
client that drains waits for no call, and looks at none. -/
theorem Releasing.resume (h : Releasing c patience now) : Releases c patience now.resume := by
  cases h with
  | drains result activity new stopping pending parts patient =>
    unfold Client.resume Client.awaited?
    rw [activity]
    exact Releasing.proceed (.drains result activity new stopping pending parts patient)
  | asks activity due new backed call said patient =>
    unfold Client.resume Client.awaited?
    rw [activity]
    refine Releasing.proceed (.asks rfl due new ?_ (call.resume lasts_asking _) ?_ patient)
    · exact Rpc.backed_step backed (.resume c.nextCall)
    · exact (Rpc.utterances_quiet now.rpc (e := .resume c.nextCall) rfl).trans said

/-- Running out of time ends one of the two waits, and so uses one unit of patience. The call that
is waited for ends with a timeout, and the connection that is drained is closed by force. -/
theorem Releasing.expire (h : Releasing c (patience + 1) now) : Releases c patience now.expire := by
  cases h with
  | drains result activity new stopping pending parts patient =>
    unfold Client.expire
    rw [activity]
    refine .ends ⟨⟨new, rfl, Rpc.gone_forceClose now.rpc, ?_⟩, result, ?_, rfl⟩
    · show now.rpc.forceClose.pending = []
      unfold Rpc.Client.forceClose
      split <;> exact pending
    · have hsame : now.rpc.step .forceClose = now.rpc.forceClose := if_pos stopping
      have hquiet := Rpc.utterances_quiet now.rpc (e := .forceClose) rfl
      have hreceived := (Rpc.advance_step now.rpc .forceClose).received.subset
      rw [hsame] at hquiet hreceived
      refine parts.mono hquiet hreceived fun o ho => ?_
      show now.rpc.forceClose.outcome? c.nextCall = some o
      unfold Rpc.Client.forceClose
      split <;> exact ho
  | asks activity due new backed call said patient =>
    -- Out of time or not, the call has an end now: its caller has not gone away.
    have hattends : now.rpc.Attends c.nextCall := by
      obtain ⟨found, hfound, hpresent, -⟩ := call
      exact ⟨found, hfound, hpresent⟩
    obtain ⟨o, houtcome⟩ := hattends.exists_outcome
    unfold Client.expire
    rw [activity]
    refine releases_of_outcome rfl due new ?_ (call.expire lasts_asking _) ?_ houtcome
      (Nat.le_of_succ_le_succ patient)
    · exact Rpc.backed_step backed (.expire c.nextCall)
    · exact (Rpc.utterances_quiet now.rpc (e := .expire c.nextCall) rfl).trans said

/-- What happens by itself leaves closing where it is: it says nothing, and no call ends by it
without its caller looking. -/
theorem Releasing.ambient (h : Releasing c patience now) {e : Rpc.Event η}
    (hambient : e.isAmbient = true) : Releasing c patience { now with rpc := now.rpc.step e } := by
  cases h with
  | asks activity due new backed call said patient =>
    have hquiet := Rpc.utterances_quiet now.rpc (Rpc.directs_of_isAmbient hambient)
    exact .asks activity due new (Rpc.backed_step backed e) (call.ambient lasts_asking hambient)
      (hquiet.trans said) patient
  | drains result activity new stopping pending parts patient =>
    exact .drains result activity new ((Rpc.advance_step now.rpc e).stopping stopping)
      (Rpc.pending_ambient pending hambient) (parts.ambient hambient) patient

/-- A client that is being closed is busy. -/
theorem Releasing.busy (h : Releasing c patience now) : now.isIdle = false := by
  unfold Client.isIdle
  cases h with
  | asks activity => rw [activity]
  | drains result activity => rw [activity]

/-- Nothing is closed without time: each wait needs some that is left. -/
theorem not_releasing_zero : ¬ Releasing c 0 now := by
  intro h
  cases h with
  | asks _ _ _ _ _ _ patient => exact absurd patient (by decide)
  | drains _ _ _ _ _ _ patient => exact absurd patient (by decide)

/-- How much patience an event leaves. -/
def Event.costs (e : Event η) : Nat := if e.isExpire then 1 else 0

/-- Closing goes on with each event. The owner of a client that is being closed is not heard, so
that only the passing of time costs any. -/
theorem Releasing.step (h : Releasing c patience now) (e : Event η) :
    Releases c (patience - e.costs) (now.step e) := by
  have hbusy : ∀ progress : Option Answer × Client η,
      Releases c patience (if now.isIdle then progress else (none, now)) := by
    intro progress
    rw [if_neg (by rw [h.busy]; exact Bool.false_ne_true)]
    exact .waits h
  cases e with
  | handshake | shutdown | close | openDocument | closeDocument => exact hbusy _
  | resume => exact h.resume
  | ambient e =>
    -- What is not ambient does nothing here.
    unfold Client.step
    dsimp only
    split
    · rename_i hambient
      exact .waits (h.ambient hambient)
    · exact .waits h
  | expire =>
    cases patience with
    | zero => exact absurd h not_releasing_zero
    | succ patience => exact h.expire

/-- Closing goes on with a run, and ends when its time has been over twice. The time that is left
goes down with each event that is the end of one. -/
theorem releases_awaitEnd {progress : Option Answer × Client η} (h : Releases c patience progress)
    (events : List (Event η)) :
    Releases c (patience - events.countP Event.isExpire) (Client.awaitEnd progress events) := by
  induction events generalizing patience progress with
  | nil =>
    cases h with
    | waits releasing => exact .waits releasing
    | ends released => exact .ends released
  | cons e events ih =>
    cases h with
    | ends released => exact .ends released
    | waits releasing =>
      have hcost : patience - (e :: events).countP Event.isExpire =
          patience - e.costs - events.countP Event.isExpire := by
        rw [List.countP_cons, Event.costs]
        omega
      rw [hcost]
      exact ih (releasing.step e)

/-- A client that is not busy begins to close. If it has shaken hands it asks for leave, with the
next call that it makes; if not, there is no leave to ask for. -/
theorem releases_close (hnumbered : c.rpc.Numbered) (hbacked : c.rpc.Backed) :
    Releases c 2 c.close := by
  unfold Client.close
  split
  · -- Leave is asked for, and the call is attended from the start.
    rename_i hdue
    have hnumber := Rpc.number_request c.rpc "shutdown" none .unit
    unfold Client.beginShutdown
    refine Releasing.proceed (.asks ?_ hdue rfl ?_ ?_ ?_ (Nat.le_refl 2))
    · exact congrArg (Activity.shuttingDown · true) hnumber
    · exact Rpc.backed_step hbacked (.request "shutdown" none .unit)
    · have hcall := Rpc.keeps_request hnumbered "shutdown" none .unit
      rw [hnumber] at hcall
      exact hcall
    · refine (c.speech_step (.request "shutdown" none .unit)).trans ?_
      rw [Rpc.Client.accepts, Client.asking]
      split <;> rfl
  · -- It was not due, so the result is good from the start.
    rename_i hnew
    have hnew := Bool.eq_false_iff.mpr hnew
    exact releases_beginClose hnew (.notDue hnew rfl) (by decide)

/-! ### After closing -/

/-- A client that was let go does not begin again: nothing can be sent, so that a handshake fails at
once. This is the one thing asked of it that looks as if it might start over. -/
theorem spent_handshake (h : Spent c) (hnumbered : c.rpc.Numbered) (rootUri : Option String) :
    Spent (c.handshake rootUri).2 := by
  unfold Client.handshake
  rw [if_neg (by rw [h.new]; exact Bool.false_ne_true)]
  split
  · exact h
  · -- The request has its answer before anybody waits for it.
    have hfails := Rpc.outcome?_request_of_ended hnumbered h.gone.dispatcher "initialize"
      (some (c.initializeParams rootUri)) initializeResult
    unfold Client.proceed
    dsimp only
    rw [hfails]
    let asks : Rpc.Event η :=
      .request "initialize" (some (c.initializeParams rootUri)) initializeResult
    have hpending := Rpc.pending_step_of_ended h.gone.dispatcher asks
    rw [h.pending] at hpending
    exact ⟨h.new, rfl, h.gone.step asks, List.eq_nil_of_subset_nil hpending⟩

/-- Closing once more is answered at once, and well: there is no leave to ask for. -/
theorem step_close_of_spent (h : Spent c) :
    c.step .close = (some .done, { c with rpc := c.rpc.beginClose.endClose }) := by
  have hended : c.rpc.beginClose.dispatcher = .ended := h.gone.dispatcher
  unfold Client.step Client.close Client.finishClose Client.beginClose
  dsimp only
  rw [if_pos (isIdle_iff.mpr h.idle), if_neg (by rw [h.new]; exact Bool.false_ne_true),
    if_pos hended, h.idle]
  rfl

/-- Whatever is asked of a client that was let go, it stays so. Everything is refused for the reason
that it has no handshake, or no operation under way. -/
theorem Spent.step (h : Spent c) (hnumbered : c.rpc.Numbered) (e : Event η) :
    Spent (c.step e).2 := by
  have hidle := isIdle_iff.mpr h.idle
  have hnot : ¬ c.initialized = true := by
    rw [h.new]
    exact Bool.false_ne_true
  cases e with
  | handshake rootUri =>
    unfold Client.step
    dsimp only
    rw [if_pos hidle]
    exact spent_handshake h hnumbered rootUri
  | close =>
    -- The connection is closed once more, which finds nobody to tell.
    rw [step_close_of_spent h]
    exact ⟨h.new, h.idle, ⟨h.gone.dispatcher, rfl⟩, c.rpc.pending_giveUp_pending⟩
  | shutdown =>
    unfold Client.step Client.shutdown
    dsimp only
    rw [if_pos hidle, if_neg hnot]
    exact h
  | openDocument d =>
    unfold Client.step Client.openDocument Client.tell
    dsimp only
    rw [if_pos hidle, if_pos hnot]
    exact h
  | closeDocument uri =>
    unfold Client.step Client.closeDocument Client.tell
    dsimp only
    rw [if_pos hidle, if_pos hnot]
    exact h
  | resume =>
    unfold Client.step Client.resume Client.awaited? Client.proceed
    simp only [h.idle]
    exact h
  | expire =>
    unfold Client.step Client.expire
    simp only [h.idle]
    exact h
  | ambient e =>
    -- A connection that is gone stays gone.
    unfold Client.step
    dsimp only
    split
    · rename_i hambient
      exact ⟨h.new, h.idle, h.gone.step e, Rpc.pending_ambient h.pending hambient⟩
    · exact h

/-- What holds of a client that was let go, whatever has been asked of it since: it has said
nothing more, and closing it once more is good at once and sends nothing. -/
structure Rests (before c : Client η) : Prop where
  spent : Spent c
  silent : c.rpc.accepted = before.rpc.accepted
  again : (c.step .close).1 = some .done
  accepted : (c.step .close).2.rpc.accepted = c.rpc.accepted
  outbound : (c.step .close).2.rpc.outbound = c.rpc.outbound
  outgoing : (c.step .close).2.rpc.stream.outgoing = c.rpc.stream.outgoing
  written : (c.step .close).2.rpc.stream.written = c.rpc.stream.written

/-- After any run, a client that was let go has said nothing more, and closing it again sends
nothing. -/
theorem rests_run (h : Spent c) (hreached : Reached c) (events : List (Event η)) :
    Rests c (c.run events).2 := by
  -- On the events: its dispatcher has ended, so that whatever is asked is not even queued.
  have hkept : Spent (c.run events).2 ∧ Reached (c.run events).2 ∧
      (c.run events).2.rpc.accepted = c.rpc.accepted := by
    induction events using List.reverseRecOn with
    | nil => exact ⟨h, hreached, rfl⟩
    | append_singleton events e ih =>
      obtain ⟨hspent, hbefore, hsilent⟩ := ih
      obtain ⟨inner, hrun⟩ := exists_run_step hbefore.patient e
      rw [run_concat]
      refine ⟨hspent.step hbefore.numbered e, hbefore.asked e, ?_⟩
      rw [hrun, Rpc.accepted_run hspent.gone.dispatcher, hsilent]
  obtain ⟨hspent, -, hsilent⟩ := hkept
  refine ⟨hspent, hsilent, ?_, ?_, ?_, ?_, ?_⟩ <;> rw [step_close_of_spent hspent] <;> rfl

/-! ### What closing comes to -/

/-- A client that is being closed stays within the states that can be reached. By induction on the
events, until the answer is there. -/
theorem Reached.awaitEnd {progress : Option Answer × Client η} (h : Reached progress.2)
    (events : List (Event η)) : Reached (Client.awaitEnd progress events).2 := by
  induction events generalizing progress with
  | nil =>
    unfold Client.awaitEnd
    exact h
  | cons e events ih =>
    obtain ⟨_ | answer, c⟩ := progress
    · exact ih (h.asked e)
    · exact h

/-- The first answer of a run is the one that its first step comes to. An owner who asks for
something while it waits gets no answer, so there is none before. -/
theorem head?_run_cons (c : Client η) (e : Event η) (events : List (Event η)) :
    (c.run (e :: events)).1.head? = (Client.awaitEnd (c.step e) events).1 := by
  induction events generalizing c e with
  | nil =>
    simp only [Client.run, Client.awaitEnd]
    cases (c.step e).1 <;> simp
  | cons e' events ih =>
    have hnext := ih (c.step e).2 e'
    rw [Client.run]
    cases hstep : c.step e with
    | mk answer now =>
      rw [hstep] at hnext
      cases answer with
      | none => exact hnext
      | some answer => rfl

/-- The server has been told to exit since then. -/
def Client.ToldSince (c now : Client η) : Prop :=
  ∃ words, now.speech = c.speech ++ words ∧ .notification "exit" ∈ words

/-- The result is good exactly if leave was not due, or if the server has acknowledged it and was
told to exit. In the other ways it was not told. -/
theorem Parts.ok_iff (h : Parts c now result) :
    result = .ok () ↔
      c.initialized = false ∨ now.Acknowledged c.nextCall ∧ Client.ToldSince c now := by
  have hasking : ∀ u ∈ c.asking, u ≠ .notification "exit" := by
    unfold Client.asking
    split <;> simp
  have hnever : now.speech = c.speech ++ c.asking → ¬ Client.ToldSince c now := by
    rintro hsaid ⟨words, hwords, hexit⟩
    rw [hsaid] at hwords
    obtain rfl := List.append_cancel_left hwords
    exact hasking _ hexit rfl
  cases h with
  | notDue new said => simp [new]
  | agreed due acknowledged said =>
    refine ⟨fun _ => .inr ⟨acknowledged, _, said.trans (List.append_assoc _ _ _), ?_⟩, fun _ => rfl⟩
    exact List.mem_append_right _ (List.mem_singleton.mpr rfl)
  | unheard due acknowledged said => simp [due, hnever said]
  | refused due e outcome said => simp [due, hnever said]

/-- A client that was closed, with the answer to it. -/
structure LetGo (c : Client η) (answer : Answer) (after : Client η) : Prop where
  initialized : after.initialized = false
  connected : after.isConnected = false
  pending : after.rpc.pending = []
  closed : after.rpc.stream.isOpen = false
  /-- The answer is what came of asking for leave. -/
  result : ∃ result, Parts c after result ∧ answer = .ofResult result
  done_iff : answer = .done ↔
    c.initialized = false ∨ after.Acknowledged c.nextCall ∧ Client.ToldSince c after
  rests : ∀ events, Rests after (after.run events).2

/-- What holds of a client that was let go, said without the parts of closing. This is where the
proof of `close_releases` leaves the invariants behind. -/
theorem Released.letGo {answer : Answer} (h : Released c answer after) (hreached : Reached after) :
    LetGo c answer after := by
  obtain ⟨result, hparts, rfl⟩ := h.result
  have hended : after.isConnected = false := by
    unfold Client.isConnected Rpc.Client.isConnected
    rw [h.spent.gone.dispatcher]
    rfl
  have hdone : Answer.ofResult result = .done ↔ result = .ok () := by
    cases result <;> simp [Answer.ofResult]
  exact ⟨h.spent.new, hended, h.spent.pending, h.spent.gone.isOpen, ⟨result, hparts, rfl⟩,
    hdone.trans hparts.ok_iff, rests_run h.spent hreached⟩

/-- What closing a client comes to while events happen. -/
structure LetsGo (c : Client η) (events : List (Event η)) : Prop where
  /-- Closing ends when its time has been over twice, if not before. -/
  ends : 2 ≤ events.countP Event.isExpire →
    ∃ answer after, Client.awaitEnd (c.step .close) events = (some answer, after)
  first : (c.run (.close :: events)).1.head? = (Client.awaitEnd (c.step .close) events).1
  letGo : ∀ answer after, Client.awaitEnd (c.step .close) events = (some answer, after) →
    LetGo c answer after

/-- Whatever state a client is in, and whatever the server and the world do, closing lets the
connection go. The answer is good exactly if leave was not to be asked for, or if the server has
agreed and was told to exit. It comes when the time has been over twice, if not before. -/
theorem close_releases (hreached : Reached c) (hidle : c.activity = .idle)
    (events : List (Event η)) : LetsGo c events := by
  have hclose : c.step .close = c.close := if_pos (isIdle_iff.mpr hidle)
  have hreleases : Releases c (2 - events.countP Event.isExpire)
      (Client.awaitEnd (c.step .close) events) := by
    rw [hclose]
    exact releases_awaitEnd (releases_close hreached.numbered hreached.backed) events
  have hafter := (hreached.asked .close).awaitEnd events
  refine ⟨fun htimes => ?_, head?_run_cons c .close events, fun answer after hends => ?_⟩
  · -- Both waits are over, and without patience there is no waiting.
    rw [Nat.sub_eq_zero_of_le htimes] at hreleases
    generalize Client.awaitEnd (c.step .close) events = progress at hreleases ⊢
    cases hreleases with
    | waits releasing => exact absurd releasing not_releasing_zero
    | ends => exact ⟨_, _, rfl⟩
  · rw [hends] at hreleases hafter
    cases hreleases with
    | ends released => exact released.letGo hafter

/-- A client shakes hands. -/
def greeting : List (Event Unit) :=
  .handshake none :: answered 1 (.object [("capabilities", .object [])])

/-- The server answers `shutdown` with an error, and then the dispatcher stops. -/
def refusal : List (Event Unit) :=
  [.ambient .sendNext, .ambient (.write none),
    .ambient (.deliver
      (Text.encode (Framing.frame (Rpc.Response.failure (.nat 2) (-32603) "no" none).toJson.print))),
    .ambient .receiveNext, .resume, .ambient .stop, .resume]

/-- A client that has shaken hands, and a server that refuses leave: the refusal is the answer, and
the connection is let go all the same. -/
theorem close_releases_of_refusal :
    let c := ((created [] none .client 0).run greeting).2
    Reached c ∧ c.activity = .idle ∧ c.initialized = true ∧ LetsGo c refusal ∧
      (c.run (.close :: refusal)).1 = [.failed (.call (.server ⟨-32603, "no", none⟩))] := by
  intro c
  have hreached : Reached c := Reached.run (.new .client 0) greeting
  have hidle : c.activity = .idle := isIdle_iff.mp (by decide +kernel)
  exact ⟨hreached, hidle, by decide +kernel, close_releases hreached hidle refusal,
    by decide +kernel⟩

end LanguageServer

end LanguageClient
