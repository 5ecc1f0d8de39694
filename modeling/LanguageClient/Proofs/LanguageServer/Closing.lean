import LanguageClient.Proofs.LanguageServer.Conduct
import LanguageClient.Proofs.Rpc.Attendance

/-!
# `LanguageClient.Proofs.LanguageServer.Closing`: a client closes its connection

Closing has two parts, and each of them may have to wait: for the answer to `shutdown`, then
for the dispatcher to end (`Closing`). Whatever the server does, closing goes on to the same
end (`Closed`): the connection is gone, and the answer is good just when the server was told
to exit.

Neither part waits longer than its time. `Closing` counts this: it holds of a number of
times that the owner may still run out of time, and `Closing.expire` takes one off.

* `Stays`: a client that has said nothing of a farewell; the handshake is none.
* `closed_close`: a client that has shaken hands begins to close.
* `Closing.resume`, `Closing.expire`, `Closing.quiet`: one lemma for each way to go on.
-/

set_option autoImplicit false

namespace LanguageClient.LanguageServer

open Rpc (utterances)

variable {η : Type} {c : Client η} {patience : Nat}

/-! ### Before closing -/

/-- The client has said nothing of a farewell. -/
def Client.Stays (c : Client η) : Prop := ∀ u ∈ ending, u ∉ utterances c.rpc.accepted

/-- The server has been told to exit. -/
def Client.ToldExit (c : Client η) : Prop := .notification "exit" ∈ utterances c.rpc.accepted

/-- A client that has said nothing of a farewell has not told the server to exit, which is the
second word of it. -/
theorem Client.Stays.untold (h : c.Stays) : ¬ c.ToldExit :=
  h (.notification "exit") (List.mem_cons_of_mem _ List.mem_cons_self)

/-- One more message that is no farewell: a client that has not said farewell has not done so after
it either. -/
theorem stays_append {messages : List Rpc.Message} (h : ∀ u ∈ ending, u ∉ utterances messages)
    {m : Rpc.Message} (hm : ∀ u, m.utterance? = some u → u ∉ ending) :
    ∀ u ∈ ending, u ∉ utterances (messages ++ [m]) := by
  intro u hu hmem
  rw [Rpc.utterances_append] at hmem
  rcases List.mem_append.mp hmem with hbefore | hnow
  · exact h u hu hbefore
  · obtain ⟨m', hm', hsays⟩ := List.mem_filterMap.mp hnow
    rw [List.mem_singleton.mp hm'] at hsays
    exact hm u hsays hu

/-- However a handshake goes on, its messages are no farewell. The only one that it may add is the
notification that the client is initialized. -/
theorem Handshaking.stays {progress : Option Answer × Client η} (h : Handshaking c progress)
    (hstays : c.Stays) : progress.2.Stays := by
  unfold Client.Stays
  cases h with
  | waits call activity accepted => rwa [accepted]
  | fails e accepted => rwa [accepted]
  | ends result initialized running accepted =>
    rw [accepted]
    refine stays_append hstays fun u hsays => ?_
    obtain rfl := Option.some.inj hsays
    decide

/-- The handshake is no farewell. A client that has shaken hands before does not come here, since it
is refused without a message. -/
theorem stays_handshake (hnew : c.initialized = false) (hstays : c.Stays)
    (rootUri : Option String) : (c.handshake rootUri).2.Stays := by
  unfold Client.handshake
  rw [if_neg (by rw [hnew]; exact nofun)]
  split
  · -- A workspace without a good URI is refused, and nothing is sent.
    exact hstays
  · refine (handshaking_proceed rfl).stays ?_
    show ∀ u ∈ ending, u ∉ utterances (c.rpc.request "initialize" _ _).2.accepted
    unfold Rpc.Client.request
    dsimp only
    split
    · exact hstays
    · refine stays_append hstays fun u hsays => ?_
      obtain rfl := Option.some.inj hsays
      simp [ending]

/-- A client that waits for the answer to `initialize` has said only that. -/
theorem Asking.stays {setup : Rpc.Setup η} (h : Asking setup c) : c.Stays := by
  unfold Client.Stays
  rw [h.recorded.said]
  decide

/-- One that has shaken hands has said how it begins, and something about documents; the words of
the farewell are of neither kind. -/
theorem Talking.stays {setup : Rpc.Setup η} (h : Talking setup c) : c.Stays := by
  have hbegins : ∀ u ∈ ending, u ∉ opening := by decide
  have hother : ∀ u ∈ ending, u.isAboutDocument = false := by decide
  obtain ⟨documents, habout, hrecorded⟩ := h.recorded
  unfold Client.Stays
  rw [hrecorded.said]
  intro u hu hmem
  rcases List.mem_append.mp hmem with hopening | hdocument
  · exact hbegins u hu hopening
  · exact nomatch (hother u hu).symm.trans (habout u hdocument)

/-! ### Closing -/

/-- A client that closes its connection, and how often its time may still be over. -/
inductive Closing (patience : Nat) (c : Client η) : Prop where
  /-- It waits for the answer to `shutdown`. -/
  | asks (call : Nat) (activity : c.activity = .shuttingDown call true)
      (attended : c.rpc.Attends call) (untold : ¬ c.ToldExit) (patient : 2 ≤ patience)
  /-- It waits for the dispatcher to end. -/
  | drains (result : Except Failure Unit) (activity : c.activity = .closing result)
      (stopping : c.rpc.stopping = true) (told : result = .ok () ↔ c.ToldExit)
      (patient : 1 ≤ patience)

/-- What going on with closing comes to. -/
inductive Closed (patience : Nat) : Option Answer × Client η → Prop where
  | waits {after : Client η} (closing : Closing patience after) : Closed patience (none, after)
  | ends {after : Client η} (answer : Answer) (gone : after.rpc.Gone)
      (told : answer = .done ↔ after.ToldExit) : Closed patience (some answer, after)

/-- A wait that ends within some time ends within more, so that patience can be counted
generously. -/
theorem Closing.mono (h : Closing patience c) {more : Nat} (hle : patience ≤ more) :
    Closing more c := by
  cases h with
  | asks call activity attended untold patient =>
    exact .asks call activity attended untold (Nat.le_trans patient hle)
  | drains result activity stopping told patient =>
    exact .drains result activity stopping told (Nat.le_trans patient hle)

/-- What comes of going on within some time comes of it within more. -/
theorem Closed.mono {progress : Option Answer × Client η} (h : Closed patience progress)
    {more : Nat} (hle : patience ≤ more) : Closed more progress := by
  cases h with
  | waits closing => exact .waits (closing.mono hle)
  | ends answer gone told => exact .ends answer gone told

/-- Nothing is closed without time. So once the time has run out often enough, closing has come to
its end. -/
theorem not_closing_zero (c : Client η) : ¬ Closing 0 c := by
  intro h
  cases h with
  | asks _ _ _ _ patient => exact absurd patient (by decide)
  | drains _ _ _ _ patient => exact absurd patient (by decide)

/-- The answer is good exactly if the result is. -/
theorem ofResult_eq_done {result : Except Failure Unit} :
    Answer.ofResult result = .done ↔ result = .ok () := by
  cases result with
  | ok => exact ⟨fun _ => rfl, fun _ => rfl⟩
  | error e => exact ⟨nofun, nofun⟩

/-- Once the dispatcher has ended, closing ends with the result that was kept for it; until then it
waits for that. -/
theorem closed_finishClose {result : Except Failure Unit} (hactivity : c.activity = .closing result)
    (hstopping : c.rpc.stopping = true) (htold : result = .ok () ↔ c.ToldExit)
    (hpatient : 1 ≤ patience) : Closed patience (c.finishClose result) := by
  unfold Client.finishClose
  split
  · rename_i hended
    exact .ends _ ⟨hended, rfl⟩ (ofResult_eq_done.trans htold)
  · exact .waits (.drains result hactivity hstopping htold hpatient)

/-- A connection that begins to close ends with the result that is kept for it, or waits for its
dispatcher. The dispatcher is stopping from then on, so that the wait has an end. -/
theorem closed_beginClose {result : Except Failure Unit} (htold : result = .ok () ↔ c.ToldExit)
    (hpatient : 1 ≤ patience) : Closed patience ((c.beginClose result).finishClose result) :=
  closed_finishClose rfl rfl htold hpatient

/-- Once the answer to `shutdown` is there, whatever it is, the connection is closed; a good answer
is followed by the word to exit, if that can be sent. So the result says whether the server was
told, and this is the point at which the two are tied together. -/
theorem closed_of_outcome {call : Nat} (hactivity : c.activity = .shuttingDown call true)
    {o : Rpc.Outcome} (houtcome : c.rpc.outcome? call = some o) (huntold : ¬ c.ToldExit)
    (hpatient : 1 ≤ patience) : Closed patience c.proceed := by
  have hrefused : ∀ e : Failure, Except.error e = Except.ok () ↔ c.ToldExit :=
    fun e => ⟨nofun, fun htold => absurd htold huntold⟩
  unfold Client.proceed
  rw [hactivity]
  dsimp only
  rw [houtcome]
  cases o with
  -- Leave was refused, or nobody answered in time: the server is not told.
  | error e => exact closed_beginClose (hrefused _) hpatient
  | ok result =>
    dsimp only [Client.afterShutdown]
    rw [Client.notify_eq]
    by_cases hended : c.rpc.dispatcher = .ended
    · -- The answer was good, but there is nobody left to tell.
      rw [if_pos hended]
      exact closed_beginClose (hrefused _) hpatient
    · rw [if_neg hended]
      -- The word to exit is queued, and it goes out before the connection closes.
      refine closed_beginClose ⟨fun _ => ?_, fun _ => rfl⟩ hpatient
      show _ ∈ utterances (c.rpc.accepted ++ _)
      rw [Rpc.utterances_append]
      exact List.mem_append_right _ (List.mem_singleton.mpr rfl)

/-- Going on looks at what the client waits for. It goes from the first wait to the second, or ends,
and never goes back. -/
theorem Closing.proceed (h : Closing patience c) : Closed patience c.proceed := by
  cases h with
  | drains result activity stopping told patient =>
    unfold Client.proceed
    rw [activity]
    exact closed_finishClose activity stopping told patient
  | asks call activity attended untold patient =>
    cases houtcome : c.rpc.outcome? call with
    | some o => exact closed_of_outcome activity houtcome untold (Nat.le_of_succ_le patient)
    | none =>
      have hwaits : c.proceed = (none, c) := by
        unfold Client.proceed
        rw [activity]
        dsimp only
        rw [houtcome]
      rw [hwaits]
      exact .waits (.asks call activity attended untold patient)

/-- Looking for the answer is not telling the server anything. -/
theorem not_toldExit_look (huntold : ¬ c.ToldExit) (number : Nat) (f : Rpc.Call → Rpc.Call) :
    ¬ ({ c with rpc := c.rpc.look number f } : Client η).ToldExit := by
  unfold Client.ToldExit
  rw [accepted_look]
  exact huntold

/-- The caller looks into its mailbox before it goes on. That changes the call it waits for and says
nothing to the server. -/
theorem Closing.resume (h : Closing patience c) : Closed patience c.resume := by
  cases h with
  | drains result activity stopping told patient =>
    unfold Client.resume Client.awaited?
    rw [activity]
    exact Closing.proceed (.drains result activity stopping told patient)
  | asks call activity attended untold patient =>
    unfold Client.resume Client.awaited?
    rw [activity]
    refine Closing.proceed (.asks call rfl (attended.resume call) ?_ patient)
    exact not_toldExit_look untold call Rpc.Call.resume

/-- Running out of time ends one of the two waits. In the first one the call gets an outcome by it,
and in the second the dispatcher is ended by force; so the time left goes down by one. -/
theorem Closing.expire (h : Closing (patience + 1) c) : Closed patience c.expire := by
  cases h with
  | drains result activity stopping told patient =>
    unfold Client.expire
    rw [activity]
    -- The dispatcher is not waited for any more, and closing ends here.
    refine .ends _ (Rpc.gone_forceClose c.rpc) (ofResult_eq_done.trans (told.trans ?_))
    show _ ↔ _ ∈ utterances c.rpc.forceClose.accepted
    unfold Rpc.Client.forceClose
    split <;> exact Iff.rfl
  | asks call activity attended untold patient =>
    -- A call that runs out of time has an outcome, so the client goes on to close.
    obtain ⟨o, houtcome⟩ := attended.exists_outcome
    unfold Client.expire
    rw [activity]
    refine closed_of_outcome rfl houtcome ?_ (Nat.le_of_succ_le_succ patient)
    exact not_toldExit_look untold call Rpc.Call.expire

/-- Whether the server was told to exit does not change by itself. -/
theorem toldExit_quiet (c : Client η) {e : Rpc.Event η} (hquiet : e.directs = false) :
    ({ c with rpc := c.rpc.step e } : Client η).ToldExit ↔ c.ToldExit := by
  unfold Client.ToldExit
  rw [Rpc.utterances_quiet c.rpc hquiet]

/-- What happens by itself leaves closing where it is: a call is attended until somebody looks, and
a stopping dispatcher does not start again. -/
theorem Closing.quiet (h : Closing patience c) {e : Rpc.Event η} (hambient : e.isAmbient = true) :
    Closing patience { c with rpc := c.rpc.step e } := by
  have htold := toldExit_quiet c (Rpc.directs_of_isAmbient hambient)
  cases h with
  | asks call activity attended untold patient =>
    exact .asks call activity (attended.ambient hambient) (fun hnow => untold (htold.mp hnow))
      patient
  | drains result activity stopping told patient =>
    exact .drains result activity ((Rpc.advance_step c.rpc e).stopping stopping)
      (told.trans htold.symm) patient

/-- A client that has shaken hands begins to close by asking for leave. Its time may run out twice,
once in each wait. -/
theorem closed_close (hinitialized : c.initialized = true) (hnumbers : c.rpc.Numbered)
    (huntold : ¬ c.ToldExit) : Closed 2 c.close := by
  have hattends := Rpc.attends_request hnumbers "shutdown" none .unit
  -- Asking for leave is a request, so the client has not told the server to exit by it.
  have hasked : .notification "exit" ∉
      utterances (c.rpc.request "shutdown" none .unit).2.accepted := by
    unfold Rpc.Client.request
    dsimp only
    split
    · exact huntold
    · show _ ∉ utterances (c.rpc.accepted ++ _)
      rw [Rpc.utterances_append, List.mem_append]
      rintro (hbefore | hnow)
      · exact huntold hbefore
      · exact nomatch List.mem_singleton.mp hnow
  unfold Client.close
  rw [if_pos hinitialized]
  unfold Client.beginShutdown
  exact Closing.proceed (.asks _ rfl hattends hasked (Nat.le_refl 2))

end LanguageClient.LanguageServer
