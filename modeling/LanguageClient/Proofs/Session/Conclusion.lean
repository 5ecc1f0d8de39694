import LanguageClient.Proofs.Session.Stopping

/-!
# `LanguageClient.Proofs.Session.Conclusion`: a stop always comes to the same clean end

A stop has two halves. The first puts the status item away and forgets the documents
(`withdrawn`); the second lets go of the connection, or begins to close it (`Kept.release`).
From any state that a session can be in before a stop, the second half leads to one that is
`Stopping`, and stays so (`stopping_run`).

* `Clean`: a session whose stop has returned.
* `Concluded`: what a stop at any moment of any run comes to, and `concluded`.
-/

set_option autoImplicit false

namespace LanguageClient.Session

open LanguageServer Rpc
open ChildProcess (Fate)

variable {s : Session} {rest : Nat}

/-! ### The stop -/

/-- A session after the first half of a stop: it counts as stopped, its item is put away, and
its documents are forgotten. -/
def withdrawn (s : Session) : Session :=
  { s with phase := .stopped, indicator := s.indicator.tearDown, documents := [] }

/-- The first half of a stop leaves the stage to the second. -/
@[simp] theorem withdrawn_stage : s.withdrawn.stage = s.stage := rfl

/-- The first half of a stop leaves the connection alone. -/
@[simp] theorem withdrawn_connection : s.withdrawn.connection = s.connection := rfl

/-- The second half of a stop lets the connection go, or begins to close it. Which of the two
depends on who has the connection: an attempt to connect is cut short, and a connection that is held
gets its farewell. Five waits are enough for either. -/
theorem Kept.release (h : Kept s) (hstanding : Standing s) :
    Ending 5 s.withdrawn.release ∧ Retires s.withdrawn s.withdrawn.release := by
  cases h with
  | bare stage connection =>
    rw [← withdrawn_connection] at connection
    unfold Session.release
    -- There is no connection to let go. An attempt that is under way is given up.
    rcases stage with stage | stage | stage
    · rw [withdrawn_stage, stage]
      exact ⟨.bare (.inl stage) connection, .refl _⟩
    · rw [withdrawn_stage, stage]
      exact ⟨.bare (.inr rfl) connection, _, _, _, rfl⟩
    · rw [withdrawn_stage, stage]
      exact ⟨.bare (.inr stage) connection, .refl _⟩
  | dropped stage connection left =>
    -- The attempt has failed before, and the connection was let go then.
    have hstage : s.withdrawn.stage = .abandoned := stage
    unfold Session.release
    rw [hstage]
    refine ⟨.left (.inl stage) connection ⟨left.gone, fun m hm => ?_⟩, .refl _⟩
    obtain ⟨child, hleaves, hfate, -⟩ := left.fate m hm
    exact ⟨child, hleaves, hfate, fun hreleased => nomatch hstage.symm.trans hreleased⟩
  | @live c stage connection spared =>
    have hstays := hstanding.stays stage connection
    unfold Session.release
    -- In the middle of the handshake the connection is let go at once. Once it is held, closing it
    -- begins with `shutdown`.
    rcases stage with stage | stage
    · rw [withdrawn_stage, stage]
      refine ⟨.left (c := c.drop) (.inl rfl) ?_ (spared.drop hstays nofun), _, _, _, rfl⟩
      exact congrArg (Option.map Connection.drop) connection
    · rw [withdrawn_stage, stage, withdrawn_connection, connection]
      -- The session holds the connection, so the handshake is done.
      have htalking := (hstanding.talking_of_stage stage (client?_of_connection connection)).2
      obtain ⟨-, -, ⟨events, hrun⟩, -⟩ := htalking.recorded
      have hnumbers : c.client.rpc.Numbered := hrun ▸ (Rpc.tabled_run events).numbers
      have hclosed := closed_close htalking.initialized hnumbers hstays.untold
      have hbegun : Retires s.withdrawn
          { s.withdrawn with stage := .closing, connection := some c } := ⟨_, _, _, rfl⟩
      refine ⟨ending_continueClose rfl rfl spared hclosed ?_,
        hbegun.trans (retires_continueClose _ _)⟩
      decide

/-- Without a connection that the session holds there is nothing to wait for: the stage after the
release is one at which a stop has returned. -/
theorem Kept.isStill_release (h : Kept s) (hnone : s.heldClient? = none) :
    s.withdrawn.release.stage.isStill = true := by
  unfold Session.release
  cases h with
  | bare stage =>
    rcases stage with stage | stage | stage
    · rw [withdrawn_stage, stage]
      exact isStill_of_bare (.inl stage)
    · rw [withdrawn_stage, stage]
      rfl
    · rw [withdrawn_stage, stage]
      exact isStill_of_bare (.inr stage)
  | dropped stage =>
    rw [withdrawn_stage, stage]
    exact isStill_of_bare (.inr stage)
  | live stage connection =>
    rcases stage with stage | stage
    · rw [withdrawn_stage, stage]
      rfl
    · -- A session that holds its connection has a client to close.
      rw [heldClient?_of_held stage, connection] at hnone
      exact nomatch hnone

/-- A stop of a session that has not been stopped is made of its two halves. -/
theorem stop_eq (hphase : s.phase ≠ .stopped) : s.stop = s.withdrawn.release := if_neg hphase

/-- A session that has not been stopped can be asked to stop: it is not busy with an earlier stop,
so the request is not put off. -/
theorem Kept.step_stop (h : Kept s) : s.step .stop = s.stop := by
  have hfree : s.isStopping = false := by
    have hending := h.isEnding
    unfold isStopping
    revert hending
    cases s.stage <;> decide
  exact if_neg fun hboth => Bool.false_ne_true (hfree.symm.trans hboth.2)

/-- The first stop makes a session one that is stopping, with five waits at most before it: two for
the connection and three for the child, if there is one. -/
theorem Kept.stop (h : Kept s) (hstanding : Standing s) (hphase : s.phase ≠ .stopped) :
    Stopping 5 s.stop ∧ Retires s.withdrawn s.stop := by
  obtain ⟨hending, hretires⟩ := h.release hstanding
  rw [stop_eq hphase]
  obtain ⟨stage, connection, relayed, heq⟩ := hretires
  refine ⟨⟨?_, ?_, hending⟩, ⟨stage, connection, relayed, heq⟩⟩
  · rw [heq]
    rfl
  · rw [heq]
    rfl

/-! ### The end -/

/-- A session whose stop has returned. -/
structure Clean (s : Session) : Prop where
  /-- No attempt to connect goes on. -/
  connecting : s.stage ≠ .opening ∧ s.stage ≠ .handshaking
  held : s.heldClient? = none
  documents : s.documents = []
  /-- A connection that was opened is closed, and nobody moves messages any more. -/
  closed : ∀ c, s.connection = some c →
    c.client.rpc.dispatcher = .ended ∧ c.client.rpc.stream.isOpen = false
  /-- A server that was spawned does not run: it has exited by itself, or it was told to exit
  and asked to terminate, or it was not told to exit and was killed. If the session held the
  connection, the exit has been waited for. -/
  child : ∀ c m, s.connection = some c → c.process = some m →
    m.isRunning = false ∧ ∃ child, m.children = [child] ∧
      Fate (.notification "exit" ∈ utterances s.messages) child ∧
      (s.stage = .released → child.exited = true)
  /-- The server is told to exit only when it has acknowledged `shutdown`. -/
  acknowledged : .notification "exit" ∈ utterances s.messages → s.HasAnswer 2 .unit

/-- The server is told to exit only after `shutdown` was answered well. This is a fact of the
conversation, whatever the session does. -/
theorem hasAnswer_of_told (h : Standing s)
    (htold : .notification "exit" ∈ utterances s.messages) : s.HasAnswer 2 .unit := by
  cases hconnection : s.connection with
  | none =>
    rw [messages_of_none hconnection] at htold
    exact nomatch htold
  | some c =>
    have hconducted := h.conducted hconnection
    rw [messages_of_some hconnection] at htold
    rw [HasAnswer, received, hconnection]
    exact hconducted.recorded.exists_response
      (Nat.lt_of_succ_lt (few_lt hconducted.few)) (hconducted.exit htold)

/-- A session whose stop has returned has nothing left open. Where the farewell is still going on
the stop has not returned, so the connection has been let go or there never was one. -/
theorem Stopping.clean (h : Stopping rest s) (hended : s.hasStopped = true)
    (hacknowledged : .notification "exit" ∈ utterances s.messages → s.HasAnswer 2 .unit) :
    Clean s := by
  obtain ⟨hopening, hhandshaking, hheld⟩ := h.ending.stage
  have hover : ∀ c, s.connection = some c → c.Left (s.stage = .released) := by
    intro c hconnection
    -- With no waits left the session neither closes its connection nor waits for its server.
    cases (h.of_hasStopped hended).ending with
    | bare _ connection => exact nomatch connection.symm.trans hconnection
    | closing _ _ _ closing => exact absurd closing (not_closing_zero _)
    | stopping _ _ _ _ _ _ _ left => exact absurd left (by decide)
    | left _ connection left => exact Option.some.inj (connection.symm.trans hconnection) ▸ left
  refine ⟨⟨hopening, hhandshaking⟩, if_neg hheld, h.documents, fun c hconnection => ?_,
    fun c m hconnection hprocess => ?_, hacknowledged⟩
  · have hgone := (hover c hconnection).gone
    exact ⟨hgone.dispatcher, hgone.isOpen⟩
  · obtain ⟨child, hleaves, hfate, hexited⟩ := (hover c hconnection).fate m hprocess
    rw [messages_of_some hconnection]
    exact ⟨hleaves.running, child, hleaves.only, hfate, hexited⟩

/-! ### Runs -/

section
variable (config : Config) (processId : Nat)

/-- At every moment of a run, a session has not been stopped and its connection is in good hands, or
it stops. By induction on the run: a stop leads from the first to the second, every other step keeps
what there is. -/
theorem kept_or_stopping (events : List Event) :
    (ran config processId events).phase ≠ .stopped ∧ Kept (ran config processId events) ∨
      Stopping 5 (ran config processId events) := by
  induction events using List.reverseRecOn with
  | nil => exact .inl ⟨nofun, .bare (.inl rfl) rfl⟩
  | append_singleton events e ih =>
    have hstanding := standing_run config processId events
    have hshift := shift_run config processId events e
    rw [ran_concat] at hshift ⊢
    rcases ih with ⟨hphase, hkept⟩ | hstopping
    · -- The session has not been stopped so far.
      by_cases hstop : e = .stop
      · subst hstop
        rw [hkept.step_stop]
        exact .inr (hkept.stop hstanding hphase).1
      · refine .inl ⟨?_, hkept.step hstanding (timely_run config processId events) hstop⟩
        generalize ((ran config processId events).step e).phase = phase at hshift ⊢
        generalize ((ran config processId events).step e).indicator = indicator at hshift
        cases hshift with
        | keep => exact hphase
        | start => decide
        | ready => decide
        | stop asked => exact absurd asked hstop
    · exact .inr (hstopping.step (.inl rfl)).1

/-- A run with an event in the middle, as what comes after that event. -/
theorem ran_append_cons (before : List Event) (e : Event) (after : List Event) :
    ran config processId (before ++ e :: after) =
      (ran config processId (before ++ [e])).run after := by
  rw [List.append_cons]
  exact run_append _ (before ++ [e]) after

variable {config processId}

/-- Before the first stop the connection is in good hands. -/
theorem kept_of_phase {events : List Event}
    (hphase : (ran config processId events).phase ≠ .stopped) :
    Kept (ran config processId events) := by
  rcases kept_or_stopping config processId events with ⟨-, hkept⟩ | hstopping
  · exact hkept
  · exact absurd hstopping.phase hphase

/-- The first stop of a run, as its two halves. -/
theorem ran_stop {before : List Event} (hphase : (ran config processId before).phase ≠ .stopped) :
    ran config processId (before ++ [.stop]) = (ran config processId before).withdrawn.release := by
  rw [ran_concat, (kept_of_phase hphase).step_stop, stop_eq hphase]

variable (config processId)

/-- A stop leaves the session stopped, and records no failure. A first stop brings this about, and a
second one finds it already. -/
theorem stopping_stop (before : List Event) :
    Stopping 5 (ran config processId (before ++ [.stop])) ∧
      (ran config processId (before ++ [.stop])).lastError =
        (ran config processId before).lastError := by
  rw [ran_concat]
  rcases kept_or_stopping config processId before with ⟨hphase, hkept⟩ | hstopping
  · obtain ⟨hstopping, stage, connection, relayed, heq⟩ :=
      hkept.stop (standing_run config processId before) hphase
    rw [hkept.step_stop]
    refine ⟨hstopping, ?_⟩
    rw [heq]
    rfl
  · -- It has been stopped before, and a second stop changes nothing.
    rw [hstopping.step_request rfl]
    exact ⟨hstopping, rfl⟩

/-- A session that has been stopped is stopping or done with it, whatever happens after the stop,
and records no failure any more. -/
theorem stopping_run (before after : List Event) :
    Stopping 5 (ran config processId (before ++ .stop :: after)) ∧
      (ran config processId (before ++ .stop :: after)).lastError =
        (ran config processId before).lastError := by
  obtain ⟨hstop, hlast⟩ := stopping_stop config processId before
  obtain ⟨hrun, stage, connection, relayed, heq⟩ := hstop.run after
  rw [ran_append_cons]
  refine ⟨hrun, ?_⟩
  rw [heq]
  exact hlast

variable {config processId}

/-- The item of a session that has been stopped has been put away, and that once. Before hiding it,
only the calls that show starting or running can have been made. -/
theorem item_of_stopped {events : List Event}
    (hphase : (ran config processId events).phase = .stopped) :
    ∃ shown, (ran config processId events).indicator.calls = shown ++ [.hide, .dispose] ∧
      .hide ∉ shown ∧ .dispose ∉ shown := by
  have hshown := shown_run config processId events
  rw [hphase] at hshown
  generalize (ran config processId events).indicator = indicator at hshown ⊢
  -- Each of the two blocks of calls was made as a whole or not at all, and neither of them hides
  -- the item or disposes of it.
  have hblock : ∀ {happened : Prop} {block part : List Status.ItemCall},
      Block happened block part → .hide ∉ block → .dispose ∉ block →
      .hide ∉ part ∧ .dispose ∉ part := by
    rintro happened block part (⟨-, rfl⟩ | ⟨-, rfl⟩) hhide hdispose
    · exact ⟨hhide, hdispose⟩
    · exact ⟨List.not_mem_nil, List.not_mem_nil⟩
  cases hshown with
  | @stopped current starting running isStarted isReadied =>
    obtain ⟨hhide, hdispose⟩ := hblock isStarted (by decide) (by decide)
    obtain ⟨hhide', hdispose'⟩ := hblock isReadied (by decide) (by decide)
    refine ⟨starting ++ running, rfl, ?_, ?_⟩
    · exact fun hmem => (List.mem_append.mp hmem).elim hhide hhide'
    · exact fun hmem => (List.mem_append.mp hmem).elim hdispose hdispose'

/-- An item that has not been put away is hidden and disposed of by the first half of a
stop. -/
theorem calls_withdrawn {events : List Event}
    (hphase : (ran config processId events).phase ≠ .stopped) :
    (ran config processId events).withdrawn.indicator.calls =
      (ran config processId events).indicator.calls ++ [.hide, .dispose] := by
  have hshown := shown_run config processId events
  show (ran config processId events).indicator.tearDown.calls = _
  generalize (ran config processId events).indicator = indicator at hshown ⊢
  generalize (ran config processId events).phase = phase at hshown hphase
  -- What is shown depends on the phase, and in three of the four the item is there.
  cases hshown with
  | idle => rfl
  | connecting => rfl
  | ready => rfl
  | stopped => exact absurd rfl hphase

variable (config processId)

/-- What a stop at one moment of a run comes to at a later moment, whatever happens in
between. -/
structure Concluded (before after : List Event) : Prop where
  /-- Until the stop has returned there is something that it waits for. -/
  waits : (ran config processId (before ++ .stop :: after)).hasStopped = false →
    ∃ e, (ran config processId (before ++ .stop :: after)).awaits e = true
  /-- It returns at the latest when it has waited five times. -/
  returns : 5 ≤ (ran config processId (before ++ [.stop])).granted after →
    (ran config processId (before ++ .stop :: after)).hasStopped = true
  /-- It returns at once if the session did not hold a connection by then. -/
  atOnce : (ran config processId before).phase ≠ .stopped →
    (ran config processId before).heldClient? = none →
    (ran config processId (before ++ [.stop])).hasStopped = true
  /-- When it has returned, everything is in order. -/
  clean : (ran config processId (before ++ .stop :: after)).hasStopped = true →
    Clean (ran config processId (before ++ .stop :: after))
  /-- The first half of the first stop hides the item and disposes of it. By then nothing of a
  farewell has been said; only the second half closes the connection. -/
  away : (ran config processId before).phase ≠ .stopped →
    ran config processId (before ++ [.stop]) = (ran config processId before).withdrawn.release ∧
    (ran config processId before).withdrawn.indicator.calls =
      (ran config processId before).indicator.calls ++ [.hide, .dispose] ∧
    ∀ u ∈ ending, u ∉ utterances (ran config processId before).withdrawn.messages
  phase : (ran config processId (before ++ .stop :: after)).phase = .stopped
  /-- That the item was hidden and disposed of remains the last that was done with it. -/
  item : ∃ shown, (ran config processId (before ++ .stop :: after)).indicator.calls =
    shown ++ [.hide, .dispose] ∧ .hide ∉ shown ∧ .dispose ∉ shown
  /-- No failure to connect is recorded from the stop on. -/
  lastError : (ran config processId (before ++ .stop :: after)).lastError =
    (ran config processId before).lastError
  /-- Another stop does nothing. -/
  again : ran config processId (before ++ .stop :: after ++ [.stop]) =
    ran config processId (before ++ .stop :: after)
  start : (ran config processId (before ++ .stop :: after)).start = .error .stopped
  openDocument : ∀ d, (ran config processId (before ++ .stop :: after)).routes d = true →
    (ran config processId (before ++ .stop :: after)).openDocument d = .error .stopped
  closeDocument : ∀ uri, (ran config processId (before ++ .stop :: after)).closeDocument uri =
    (.ok false, ran config processId (before ++ .stop :: after))

/-- A stop always comes to the same clean end. What a stop does by itself is said by
`stopping_stop`; that nothing undoes it, by `stopping_run`; what is left in the end, by
`Stopping.clean`. -/
theorem concluded (before after : List Event) : Concluded config processId before after where
  waits := (stopping_run config processId before after).1.exists_awaits
  returns hgranted := by
    rw [ran_append_cons]
    exact ((stopping_stop config processId before).1.run_of_granted hgranted).hasStopped
  atOnce hphase hnone := by
    -- Nothing is left to wait for, so the stop is over when it is asked for.
    have hstill := (kept_of_phase hphase).isStill_release hnone
    rw [← ran_stop hphase] at hstill
    exact (stopping_stop config processId before).1.hasStopped_of_still hstill
  clean hended :=
    (stopping_run config processId before after).1.clean hended
      (hasAnswer_of_told (standing_run config processId _))
  away hphase :=
    ⟨ran_stop hphase, calls_withdrawn hphase,
      (kept_of_phase hphase).stays (standing_run config processId before)⟩
  phase := (stopping_run config processId before after).1.phase
  item := item_of_stopped (stopping_run config processId before after).1.phase
  lastError := (stopping_run config processId before after).2
  again := by
    -- A second stop finds the phase stopped already and does nothing.
    rw [ran_concat]
    exact (stopping_run config processId before after).1.step_request rfl
  start := (stopping_run config processId before after).1.start
  openDocument _ hroutes := (stopping_run config processId before after).1.openDocument hroutes
  closeDocument := (stopping_run config processId before after).1.closeDocument

end

/-- A session that spawns its server. -/
def spawning : Config := { Config.default with transport := .spawn "BeefLsp" [] none }

/-- A server that lets both waits run out is killed, and one that acknowledges `shutdown` is
asked to terminate. -/
example :
    let signals (s : Session) := s.connection.bind fun c =>
      c.process.map fun m => m.children.map ChildProcess.Child.signals
    let before := [.start, .spawned (.ok 7)] ++
      answering 1 (.object [("capabilities", .object [])]) ++ [.stop]
    let after := [.child (.exit 0), .child (.reap 0), .resume]
    signals (ran spawning 0 (before ++ [.expire, .expire] ++ after)) = some [[.kill]] ∧
      signals (ran spawning 0 (before ++ answering 2 .null ++ [.ambient .stop, .resume] ++ after)) =
        some [[.terminate]] := by
  decide +kernel

end LanguageClient.Session
