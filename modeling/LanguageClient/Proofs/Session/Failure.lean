import LanguageClient.Proofs.Session.Conclusion
import LanguageClient.Proofs.Status.Indicator

/-!
# `LanguageClient.Proofs.Session.Failure`: a session that could not connect

There is one attempt to connect. It is lost when the server is not reached or the handshake
fails, and then the failure is recorded; it is won when the handshake ends well. Neither is
ever undone (`Attempt`), so a session with a recorded failure has never held a connection.

Yet its server had a say: from the first message of the handshake on, the handler for
readiness is there, and all that counts for it is the phase. A session that could not connect
was ready at some moment just when its server said so before the handshake had failed
(`neverReady_iff`).

* `Stage.isWon`: the stages after a handshake that ended well.
* `Attempt.step`: what any step does to the attempt to connect.
* `readied_iff`: the moments at which a session becomes ready.
* `Premature`: the server says that it is ready in the middle of the handshake.
-/

set_option autoImplicit false

namespace LanguageClient.Session

open Rpc Status

variable {s middle after : Session}

/-! ### The attempt to connect -/

/-- Whether a stage comes only after a handshake that ended well. -/
def Stage.isWon : Stage → Bool
  | .held | .closing | .stoppingChild | .released => true
  | .unopened | .opening | .handshaking | .abandoned => false

/-- What going on does to the attempt to connect. -/
inductive Attempt (s after : Session) : Prop where
  /-- No failure is recorded, and what was won or lost by then is still so. -/
  | goes (lastError : after.lastError = s.lastError)
      (won : s.stage.isWon = true → after.stage.isWon = true)
      (lost : s.stage = .abandoned → after.stage = .abandoned)
  | fails (before : s.stage.isWon = false) (lost : after.stage = .abandoned)

/-- A step that leaves stage and failure as they are does nothing to the attempt. -/
theorem Attempt.of_same (hlast : after.lastError = s.lastError) (hstage : after.stage = s.stage) :
    Attempt s after :=
  .goes hlast (fun h => hstage ▸ h) (fun h => hstage.trans h)

/-- As long as nothing is won or lost, any stage may follow. -/
theorem Attempt.of_open (hlast : after.lastError = s.lastError) (hwon : s.stage.isWon = false)
    (hlost : s.stage ≠ .abandoned) : Attempt s after :=
  .goes hlast (fun h => nomatch hwon.symm.trans h) (fun h => absurd h hlost)

/-- A connection that was held stays one that was, also while it is being closed and after that. -/
theorem Attempt.of_won (hlast : after.lastError = s.lastError) (hafter : after.stage.isWon = true)
    (hwon : s.stage.isWon = true) : Attempt s after := by
  refine .goes hlast (fun _ => hafter) fun hlost => ?_
  rw [hlost] at hwon
  exact nomatch hwon

/-- What is won is not lost any more. -/
theorem Attempt.won (h : Attempt s after) (hwon : s.stage.isWon = true) :
    after.stage.isWon = true := by
  cases h with
  | goes _ won => exact won hwon
  | fails before => exact nomatch before.symm.trans hwon

/-- What is done to the attempt in two steps. A failure in either of them is one of both: what was
open before the second was open before the first. -/
theorem Attempt.trans (h : Attempt s middle) (h' : Attempt middle after) : Attempt s after := by
  cases h with
  | goes lastError won lost =>
    cases h' with
    | goes lastError' won' lost' =>
      exact .goes (lastError'.trans lastError) (won' ∘ won) (lost' ∘ lost)
    | fails before' lost' =>
      -- What is won before the first step is won before the second, which fails.
      refine .fails (Bool.eq_false_iff.mpr fun hwon => ?_) lost'
      exact nomatch before'.symm.trans (won hwon)
  | fails before lost =>
    cases h' with
    | goes _ _ lost' => exact .fails before (lost' lost)
    | fails _ lost' => exact .fails before lost'

/-- The handshake goes on, is won or is lost. Only here, and where no connection could be opened, an
attempt is lost. -/
theorem attempt_continueHandshake (hstage : s.stage = .handshaking)
    (progress : Option LanguageServer.Answer × LanguageServer.Client Handler) :
    Attempt s (s.continueHandshake progress) := by
  unfold continueHandshake
  dsimp only
  split
  · unfold afterHandshake
    split
    · exact .fails (by rw [hstage]; rfl) rfl
    · exact .of_open rfl (by rw [hstage]; rfl) (by rw [hstage]; exact nofun)
  · exact .of_same rfl rfl

/-- A connection has been opened, and the handshake begins. It may be lost at once if the server is
gone already. -/
theorem attempt_connected (hstage : s.stage = .opening) (stream : Stream)
    (process : Option ChildProcess.Manager) : Attempt s (s.connected stream process) := by
  have hbegun : Attempt s { s with
      stage := .handshaking
      connection := some { client := newClient s.config s.processId stream, process }
      opened := s.opened + 1 } :=
    .of_open rfl (by rw [hstage]; rfl) (by rw [hstage]; exact nofun)
  exact hbegun.trans (attempt_continueHandshake rfl _)

/-- A dial that is refused loses the attempt. One that is not begins the handshake, by which it may
be lost or won. -/
theorem attempt_dialed (s : Session) (refusal : Option SystemError) :
    Attempt s (s.dialed refusal) := by
  unfold dialed
  split
  · rename_i hstage _
    exact .fails (by rw [hstage]; rfl) rfl
  · rename_i hstage _
    exact attempt_connected hstage _ _
  · exact .of_same rfl rfl

/-- A server that cannot be spawned, or whose stream cannot be had, loses the attempt. One that can
be spawned begins the handshake. -/
theorem attempt_spawned (s : Session) (verdict : Except SystemError Nat) :
    Attempt s (s.spawned verdict) := by
  unfold spawned
  split
  · rename_i hstage _
    dsimp only
    split
    · exact attempt_connected hstage _ _
    · exact .fails (by rw [hstage]; rfl) rfl
  · exact .of_same rfl rfl

/-- A session that is being stopped records no failure. -/
theorem Retires.lastError (h : Retires s after) : after.lastError = s.lastError := by
  obtain ⟨_, _, _, rfl⟩ := h
  rfl

/-- Waiting for the server to exit is for connections that were held. So the attempt was won before,
and remains so. -/
theorem isWon_continueStop (hwon : s.stage.isWon = true) :
    s.continueStop.stage.isWon = true := by
  unfold continueStop
  split
  · dsimp only
    split
    · rfl
    · exact hwon
  · rfl

/-- Closing, and what follows it, is for connections that were held. So the attempt was won before,
and remains so. -/
theorem isWon_continueClose (hwon : s.stage.isWon = true)
    (progress : Option LanguageServer.Answer × LanguageServer.Client Handler) :
    (s.continueClose progress).stage.isWon = true := by
  unfold continueClose
  dsimp only
  split
  · unfold afterClose
    dsimp only
    split
    · split
      · exact isWon_continueStop rfl
      · rfl
    · rfl
  · exact hwon

/-- Nothing is lost any more once the connection is being closed. A server that does not answer then
is no failure to connect. -/
theorem attempt_continueClose (hwon : s.stage.isWon = true)
    (progress : Option LanguageServer.Answer × LanguageServer.Client Handler) :
    Attempt s (s.continueClose progress) :=
  .of_won (retires_continueClose s progress).lastError (isWon_continueClose hwon progress) hwon

/-- A server that does not exit is no failure to connect: the connection was won, and it is the stop
that takes its time. -/
theorem attempt_continueStop (hwon : s.stage.isWon = true) : Attempt s s.continueStop :=
  .of_won (retires_continueStop s).lastError (isWon_continueStop hwon) hwon

/-- When something has come, the handshake or the stop goes on. Only the handshake can be lost,
since a stop comes after it. -/
theorem attempt_resume (s : Session) : Attempt s s.resume := by
  unfold resume
  split
  · rename_i hstage _
    exact attempt_continueHandshake hstage _
  · rename_i hstage _
    exact attempt_continueClose (by rw [hstage]; rfl) _
  · rename_i hstage
    exact attempt_continueStop (by rw [hstage]; rfl)
  · exact .of_same rfl rfl

/-- When the time is over, a handshake without an answer is lost, and a stop goes on. Only the first
concerns the attempt. -/
theorem attempt_expire (s : Session) : Attempt s s.expire := by
  unfold expire
  split
  · rename_i hstage _
    exact attempt_continueHandshake hstage _
  · rename_i hstage _
    exact attempt_continueClose (by rw [hstage]; rfl) _
  · exact .of_same rfl rfl
  · exact .of_same rfl rfl

/-- A stop gives up an attempt that is under way; that is no failure. The stage says so, and nothing
is recorded. -/
theorem attempt_release (s : Session) : Attempt s s.release := by
  unfold release
  split
  · rename_i hstage
    exact .of_open rfl (by rw [hstage]; rfl) (by rw [hstage]; exact nofun)
  · rename_i hstage
    exact .of_open rfl (by rw [hstage]; rfl) (by rw [hstage]; exact nofun)
  · -- The connection is held, so what follows comes after a handshake that ended well.
    rename_i hstage _
    have hbegun : Attempt s { s with stage := .closing } :=
      .of_won rfl rfl (by rw [hstage]; rfl)
    exact hbegun.trans (attempt_continueClose rfl _)
  · exact .of_same rfl rfl

/-- A stop records no failure. -/
theorem attempt_stop (s : Session) : Attempt s s.stop := by
  unfold stop
  split
  · exact .of_same rfl rfl
  · have hbegun : Attempt s s.withdrawn := .of_same rfl rfl
    exact hbegun.trans (attempt_release _)

/-- A start begins the one attempt. A session that was started before refuses it. -/
theorem attempt_start (htimely : Timely s) : Attempt s (s.take .start) := by
  show Attempt s (s.start.toOption.getD s)
  unfold start
  split
  · rename_i hidle
    have hstage := htimely.fresh hidle
    exact .of_open rfl (by rw [hstage]; rfl) (by rw [hstage]; exact nofun)
  · exact .of_same rfl rfl
  · exact .of_same rfl rfl

/-- What happens on the connection by itself decides nothing. What it means for the handshake shows
when the session goes on. -/
theorem attempt_ambient (s : Session) (e : Rpc.Event Handler) : Attempt s (s.ambient e) := by
  cases hconnection : s.connection with
  | none =>
    rw [ambient, hconnection]
    exact .of_same rfl rfl
  | some connection =>
    obtain ⟨phase, indicator, relayed, heq, -⟩ := ambient_eq hconnection e
    rw [heq]
    exact .of_same rfl rfl

/-- What a step does to the attempt to connect: it may lose one that is open, and cannot undo what
is won or lost. -/
theorem Attempt.step (htimely : Timely s) (e : Event) : Attempt s (s.step e) := by
  unfold Session.step
  split
  · exact .of_same rfl rfl
  cases e with
  | start => exact attempt_start htimely
  | openDocument d =>
    -- Documents are kept and announced, and this is nothing to the connection.
    have hopening := opening s d
    generalize s.take (.openDocument d) = after at hopening ⊢
    cases hopening with
    | same => exact .of_same rfl rfl
    | deferred => exact .of_same rfl rfl
    | told => exact .of_same rfl rfl
  | closeDocument uri =>
    have hclosing := closing s uri
    generalize s.take (.closeDocument uri) = after at hclosing ⊢
    cases hclosing with
    | same => exact .of_same rfl rfl
    | deferred => exact .of_same rfl rfl
    | told => exact .of_same rfl rfl
    -- The owner is told that the server could not be, and the attempt to connect is not concerned.
    | lost => exact .of_same rfl rfl
  | stop => exact attempt_stop s
  | dialed refusal => exact attempt_dialed s refusal
  | spawned verdict => exact attempt_spawned s verdict
  | resume => exact attempt_resume s
  | expire => exact attempt_expire s
  | ambient inner =>
    show Attempt s (if inner.isAmbient then s.ambient inner else s)
    split
    · -- What the server does decides nothing yet. It shows when the session goes on.
      exact attempt_ambient s inner
    · exact .of_same rfl rfl
  | child inner =>
    show Attempt s (if inner.isAmbient then s.child inner else s)
    split
    · exact .of_same rfl rfl
    · exact .of_same rfl rfl

/-! ### Runs -/

section
variable (config : Config) (processId : Nat)

/-- What the last event of a run does to the attempt. -/
theorem attempt_run (events : List Event) (e : Event) :
    Attempt (ran config processId events) (ran config processId (events ++ [e])) := by
  rw [ran_concat]
  exact .step (timely_run config processId events) e

variable {config processId}

/-- A recorded failure is the end of the attempt. Both are set together, and neither is changed
later. -/
theorem abandoned_of_lastError {events : List Event}
    (h : (ran config processId events).lastError ≠ none) :
    (ran config processId events).stage = .abandoned := by
  induction events using List.reverseRecOn with
  | nil => exact absurd rfl h
  | append_singleton events e ih =>
    cases attempt_run config processId events e with
    | goes lastError _ lost =>
      rw [lastError] at h
      exact lost (ih h)
    | fails _ lost => exact lost

/-- What is won stays won for the rest of a run. By induction on the events; no step takes it
back. -/
theorem isWon_run {before : List Event}
    (h : (ran config processId before).stage.isWon = true) (after : List Event) :
    (ran config processId (before ++ after)).stage.isWon = true := by
  induction after using List.reverseRecOn with
  | nil => rwa [List.append_nil]
  | append_singleton after e ih =>
    rw [← List.append_assoc]
    exact (attempt_run config processId (before ++ after) e).won ih

/-- A session that could not connect had not connected before: had the attempt been won, it could
not have been lost. -/
theorem not_isWon_of_lastError {before events : List Event} (hbefore : before <+: events)
    (h : (ran config processId events).lastError ≠ none) :
    (ran config processId before).stage.isWon = false := by
  obtain ⟨after, rfl⟩ := hbefore
  refine Bool.eq_false_iff.mpr fun hwon => ?_
  have hlater := isWon_run hwon after
  rw [abandoned_of_lastError h] at hlater
  exact nomatch hlater

/-! ### Readiness -/

/-- A session that was ready in the beginning of a run was so in the run. -/
theorem Readied.mono {before events : List Event} (h : Readied config processId before)
    (hbefore : before <+: events) : Readied config processId events := by
  obtain ⟨earlier, hearlier, hready⟩ := h
  exact ⟨earlier, hearlier.trans hbefore, hready⟩

/-- A session was ready just when its server has said so while it was connecting. Whether the
handshake had ended by then makes no difference, and that is what the failure below comes from. -/
theorem readied_iff (events : List Event) :
    Readied config processId events ↔ ∃ before e, before ++ [e] <+: events ∧
      (ran config processId before).phase = .connecting ∧
      Dispatches (ran config processId before) e := by
  constructor
  · intro h
    induction events using List.reverseRecOn with
    | nil =>
      obtain ⟨before, hbefore, hready⟩ := h
      rw [List.prefix_nil.mp hbefore] at hready
      exact nomatch hready
    | append_singleton events e ih =>
      by_cases hearlier : Readied config processId events
      · obtain ⟨before, e', hbefore, hmoment⟩ := ih hearlier
        exact ⟨before, e', hbefore.trans (List.prefix_append _ _), hmoment⟩
      · -- The session has become ready by the last event.
        have hready := ((readied_concat events e).mp h).resolve_left hearlier
        have hnot : (ran config processId events).phase ≠ .ready :=
          fun hready => hearlier ⟨events, List.prefix_rfl, hready⟩
        exact ⟨events, e, List.prefix_rfl,
          ((shift_run config processId events e).ready_iff hnot).mp hready⟩
  · -- What the server says is heard by the readiness handler, and the phase lets it pass.
    rintro ⟨before, e, hbefore, hconnecting, htold⟩
    refine ⟨before ++ [e], hbefore, ?_⟩
    refine ((shift_run config processId before e).ready_iff ?_).mpr ⟨hconnecting, htold⟩
    rw [hconnecting]
    exact nofun

/-- Showing that the session starts never displays that it runs. If something is displayed already
it may stay. -/
theorem current_showStarting {i : Indicator} (h : i.showStarting.current = some .running) :
    i.current = some .running := by
  unfold Indicator.showStarting at h
  split at h
  · exact h
  · exact absurd (Option.some.inj h) (by decide)

/-- Only a session that was ready at some moment displays that it is running. By induction on the
run, with one case for each thing that can be shown. -/
theorem readied_of_current {events : List Event}
    (h : (ran config processId events).indicator.current = some .running) :
    Readied config processId events := by
  induction events using List.reverseRecOn with
  | nil => exact nomatch h
  | append_singleton events e ih =>
    rw [readied_concat]
    have hshift := shift_run config processId events e
    generalize (ran config processId (events ++ [e])).phase = phase at hshift ⊢
    generalize (ran config processId (events ++ [e])).indicator = indicator at hshift h
    cases hshift with
    -- Of the four only the news that the server is ready lets it display this.
    | keep => exact .inl (ih h)
    | start => exact .inl (ih (current_showStarting h))
    | ready => exact .inr rfl
    | stop => exact .inl (ih ((Indicator.current_tearDown _).symm.trans h))

/-- A session makes the calls that show that it is running only if it was ready, since they are made
together with that change of the phase. -/
theorem readied_of_calls {events : List Event} {call : ItemCall}
    (hcall : call ∈ Descriptor.running.calls)
    (h : call ∈ (ran config processId events).indicator.calls) :
    Readied config processId events := by
  obtain ⟨starting, running, ending, hcalls, hstarting, hrunning, hending⟩ :=
    (shown_run config processId events).calls
  -- The three blocks have no call in common.
  have hother : ∀ call ∈ Descriptor.running.calls, call ∉ startingCalls ∧ call ∉ endingCalls := by
    decide
  rw [hcalls, List.mem_append, List.mem_append] at h
  rcases h with (h | h) | h
  · exact absurd (hstarting.of_mem h).2 (hother call hcall).1
  · exact (hrunning.of_mem h).1
  · exact absurd (hending.of_mem h).2 (hother call hcall).2

/-- Until a connection is held, the server is heard during the handshake only: before it there is no
connection, and one that was let go takes nothing in. -/
theorem handshaking_of_dispatches {events : List Event} {e : Event}
    (hphase : (ran config processId events).phase ≠ .stopped)
    (htold : Dispatches (ran config processId events) e)
    (hwon : (ran config processId events).stage.isWon = false) :
    (ran config processId events).stage = .handshaking := by
  obtain ⟨-, connection, payload, n, hconnection, harrives, -, -⟩ := htold
  cases kept_of_phase hphase with
  | bare _ hnone => exact nomatch hnone.symm.trans hconnection
  | live hstage =>
    refine hstage.resolve_right fun hheld => ?_
    rw [hheld] at hwon
    exact nomatch hwon
  | dropped _ hsome left =>
    -- Nothing arrives over a connection that was let go.
    obtain rfl := Option.some.inj (hsome.symm.trans hconnection)
    exact nomatch left.gone.1.symm.trans harrives.1

/-- A session that shakes hands has been started and not been stopped. It may be ready by then,
because the server may have said so before its answer. -/
theorem phase_of_handshaking {events : List Event}
    (hstage : (ran config processId events).stage = .handshaking) :
    (ran config processId events).phase = .connecting ∨
      (ran config processId events).phase = .ready := by
  cases hphase : (ran config processId events).phase with
  | idle =>
    exact nomatch ((timely_run config processId events).fresh hphase).symm.trans hstage
  | connecting => exact .inl rfl
  | ready => exact .inr rfl
  | stopped =>
    -- A session that was stopped is at a stage of the stop, and the handshake is none.
    rcases kept_or_stopping config processId events with ⟨hnot, -⟩ | hstopping
    · exact absurd hphase hnot
    · exact absurd hstage hstopping.ending.stage.2.1

/-! ### Sessions that could not connect -/

variable (config processId)

/-- The server says that it is ready in the middle of the handshake. -/
def Premature (events : List Event) : Prop :=
  ∃ before e, before ++ [e] <+: events ∧ (ran config processId before).stage = .handshaking ∧
    Dispatches (ran config processId before) e

/-- At no moment of a run was the session ready, or shown to be running. -/
structure NeverReady (events : List Event) : Prop where
  phase : ∀ before, before <+: events → (ran config processId before).phase ≠ .ready
  /-- What is displayed was never that it is running. -/
  current : ∀ before, before <+: events →
    (ran config processId before).indicator.current ≠ some .running
  /-- Nor was any call made that shows it. -/
  calls : ∀ call ∈ Descriptor.running.calls,
    call ∉ (ran config processId events).indicator.calls

variable {config processId}

/-- That a session was never ready says all three: neither the phase, nor what is displayed, nor the
calls of the item ever showed that it runs. -/
theorem neverReady_iff_not_readied (events : List Event) :
    NeverReady config processId events ↔ ¬ Readied config processId events := by
  constructor
  · rintro ⟨hphase, -, -⟩ ⟨before, hbefore, hready⟩
    exact hphase before hbefore hready
  · intro hnot
    refine ⟨fun before hbefore hready => hnot ⟨before, hbefore, hready⟩, ?_, ?_⟩
    · exact fun before hbefore hcurrent => hnot ((readied_of_current hcurrent).mono hbefore)
    · exact fun call hcall hmem => hnot (readied_of_calls hcall hmem)

/-- A server that is heard in the middle of the handshake is believed: the phase is still that of
connecting, or the session is ready already. -/
theorem readied_of_premature {events : List Event} (h : Premature config processId events) :
    Readied config processId events := by
  obtain ⟨before, e, hbefore, hstage, htold⟩ := h
  rcases phase_of_handshaking hstage with hconnecting | hready
  · exact (readied_iff events).mpr ⟨before, e, hbefore, hconnecting, htold⟩
  · exact ⟨before, (List.prefix_append _ _).trans hbefore, hready⟩

/-- A session that could not connect was at no moment ready, and at no moment shown to be running,
just when its server has not said that it is ready before the handshake failed. The stage cannot
have been a later one, since the attempt was never won. -/
theorem neverReady_iff {events : List Event}
    (hfailed : (ran config processId events).lastError ≠ none) :
    NeverReady config processId events ↔ ¬ Premature config processId events := by
  rw [neverReady_iff_not_readied]
  refine not_congr ⟨fun hreadied => ?_, readied_of_premature⟩
  obtain ⟨before, e, hbefore, hconnecting, htold⟩ := (readied_iff events).mp hreadied
  have hwon := not_isWon_of_lastError ((List.prefix_append before [e]).trans hbefore) hfailed
  refine ⟨before, e, hbefore, handshaking_of_dispatches ?_ htold hwon, htold⟩
  rw [hconnecting]
  exact nofun

end

/-- A server that is not reached never makes the session ready. Only an event of the connection
makes a session ready, and this run has none. -/
theorem neverReady_of_unreachable :
    (ran .default 0 [.start, .dialed (some .connectionRefused)]).lastError ≠ none ∧
      NeverReady .default 0 [.start, .dialed (some .connectionRefused)] := by
  have hfailed : (ran .default 0 [.start, .dialed (some .connectionRefused)]).lastError ≠ none := by
    decide
  refine ⟨hfailed, (neverReady_iff hfailed).mpr ?_⟩
  rintro ⟨before, e, hbefore, -, heq, -⟩
  have hmem : e ∈ [Event.start, .dialed (some .connectionRefused)] :=
    hbefore.subset (List.mem_append_right before List.mem_cons_self)
  rw [heq] at hmem
  simp at hmem

/-- The server says that it is ready. -/
def announcing : List Event :=
  [.ambient (.deliver (Text.encode (Framing.frame
      (Message.notification { method := readyMethod, params := none }).payload))),
    .ambient .receiveNext]

/-- The server refuses the handshake. -/
def refusing : List Event :=
  [.ambient (.deliver (Text.encode (Framing.frame
      (Message.response (.failure (.nat 1) (-32603) "no" none)).payload))),
    .ambient .receiveNext, .resume]

/-- A server that says that it is ready and then refuses the handshake leaves a session that could
not connect, is ready, and is shown to be running. Nothing looks at the phase when the handshake
fails. -/
theorem ready_of_announcing_refusing :
    let events := [.start, .dialed none] ++ announcing ++ refusing
    (ran .default 0 events).lastError ≠ none ∧ (ran .default 0 events).phase = .ready ∧
      (ran .default 0 events).indicator.current = some .running ∧
      ¬ NeverReady .default 0 events := by
  intro events
  have hready : (ran .default 0 events).phase = .ready := by decide +kernel
  refine ⟨by decide +kernel, hready, by decide +kernel, fun h => ?_⟩
  exact h.phase events List.prefix_rfl hready

/-- After the refusal it is not heard any more. -/
example : (ran .default 0 ([.start, .dialed none] ++ refusing ++ announcing)).phase =
    .connecting := by
  decide +kernel

end LanguageClient.Session
