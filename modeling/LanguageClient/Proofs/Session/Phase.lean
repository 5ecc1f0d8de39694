import LanguageClient.Proofs.Session.Tracking

/-!
# `LanguageClient.Proofs.Session.Phase`: the phase and the stage

A session has a phase, which its owner sees, and a stage, which says how far its connection
is. The two agree at both ends: a session that has not been started has not opened a
connection, and only one that is stopped closes it (`Timely`). So a request is never put off
but after a stop (`Timely.phase_of_isStopping`).

* `Moves`: what going on with the connection leaves alone; from `Tracking`.
* `Steady`: it does not begin by itself, and it does not close by itself either.
* `timely_run`: every run keeps `Timely`.
-/

set_option autoImplicit false

namespace LanguageClient.Session

/-- Whether a stage comes with a stop only. -/
def Stage.isEnding : Stage → Bool
  | .closing | .stoppingChild | .released => true
  | .unopened | .opening | .handshaking | .abandoned | .held => false

variable {s after : Session}

/-! ### Going on -/

/-- The connection of a session goes on by itself. -/
structure Steady (s after : Session) : Prop where
  moves : Moves s after
  /-- It does not begin. -/
  unopened : s.stage = .unopened → after.stage = .unopened
  /-- It does not begin to close. -/
  ending : after.stage.isEnding = true → s.stage.isEnding = true

/-- A session that does not go on is steady. -/
theorem Steady.refl (s : Session) : Steady s s := ⟨.refl s, id, id⟩

/-- What goes on after the attempt to connect has begun cannot begin it. -/
theorem Steady.of_opened (hmoves : Moves s after) (hstage : s.stage ≠ .unopened)
    (hending : after.stage.isEnding = true → s.stage.isEnding = true) : Steady s after :=
  ⟨hmoves, fun h => absurd h hstage, hending⟩

/-- A handshake that goes on does not close the connection: it waits, is given up, or leads to a
connection that is held. -/
theorem ending_continueHandshake {progress : Option LanguageServer.Answer ×
    LanguageServer.Client Handler} (h : (s.continueHandshake progress).stage.isEnding = true) :
    s.stage.isEnding = true := by
  unfold continueHandshake at h
  dsimp only at h
  split at h
  · unfold afterHandshake at h
    split at h
    · exact nomatch h
    · exact nomatch h
  · exact h

/-- A connection that begins with its handshake is not being closed. -/
theorem ending_connected {stream : Stream} {process : Option ChildProcess.Manager} :
    (s.connected stream process).stage.isEnding = false := by
  rw [← Bool.not_eq_true]
  intro h
  exact nomatch ending_continueHandshake h

/-- A dial leads from opening to the handshake or gives the attempt up. Neither is a stage of a
session that is being stopped, so the phase need not change. -/
theorem steady_dialed (s : Session) (refusal : Option SystemError) :
    Steady s (s.dialed refusal) := by
  unfold dialed
  split
  · rename_i hstage _
    exact .of_opened ⟨_, _, _, _, rfl⟩ (by rw [hstage]; exact nofun) nofun
  · rename_i hstage _
    refine .of_opened (moves_connected _ _ _) (by rw [hstage]; exact nofun) fun h => ?_
    rw [ending_connected] at h
    exact nomatch h
  · exact .refl s

/-- Spawning the server leads from opening to the handshake. If there is no server or no stream, the
attempt is given up. -/
theorem steady_spawned (s : Session) (verdict : Except SystemError Nat) :
    Steady s (s.spawned verdict) := by
  unfold spawned
  split
  · rename_i hstage _
    have hopened : s.stage ≠ .unopened := by rw [hstage]; exact nofun
    dsimp only
    split
    · refine .of_opened (moves_connected _ _ _) hopened fun h => ?_
      rw [ending_connected] at h
      exact nomatch h
    · exact .of_opened ⟨_, _, _, _, rfl⟩ hopened nofun
  · exact .refl s

/-- Going on does not begin anything: the handshake stays before a stop, and closing stays after
it. -/
theorem steady_resume (s : Session) : Steady s s.resume := by
  unfold resume
  split
  · rename_i hstage _
    exact .of_opened (moves_continueHandshake _ _) (by rw [hstage]; exact nofun)
      ending_continueHandshake
  · rename_i hstage _
    exact .of_opened (moves_continueClose _ _) (by rw [hstage]; exact nofun)
      fun _ => by rw [hstage]; rfl
  · -- The session waits for its server to exit, which is a stage after a stop already.
    rename_i hstage
    exact .of_opened (moves_continueStop _) (by rw [hstage]; exact nofun)
      fun _ => by rw [hstage]; rfl
  · exact .refl s

/-- Time that is over does not change the phase either: the handshake is given up by it, and a stop
goes on. -/
theorem steady_expire (s : Session) : Steady s s.expire := by
  unfold expire
  split
  · rename_i hstage _
    exact .of_opened (moves_continueHandshake _ _) (by rw [hstage]; exact nofun)
      ending_continueHandshake
  · rename_i hstage _
    exact .of_opened (moves_continueClose _ _) (by rw [hstage]; exact nofun)
      fun _ => by rw [hstage]; rfl
  · rename_i hstage _
    exact .of_opened ⟨_, _, _, _, rfl⟩ (by rw [hstage]; exact nofun) id
  · exact .refl s

/-! ### Steps -/

/-- How phase and stage agree. -/
structure Timely (s : Session) : Prop where
  /-- Before the start there is no attempt to connect. -/
  fresh : s.phase = .idle → s.stage = .unopened
  /-- Only a session that is stopped closes its connection. -/
  stopped : s.stage.isEnding = true → s.phase = .stopped

/-- Only while a stop goes on a request is put off. The stages at which a session counts as stopping
are among those that come with a stop. -/
theorem Timely.phase_of_isStopping (h : Timely s) (hstopping : s.isStopping = true) :
    s.phase = .stopped := by
  refine h.stopped ?_
  unfold isStopping at hstopping
  rcases Bool.or_eq_true_iff.mp hstopping with hstage | hstage
  · rw [of_decide_eq_true hstage]
    rfl
  · rw [of_decide_eq_true hstage]
    rfl

/-- What leaves phase and stage alone keeps them in agreement. -/
theorem Timely.congr (h : Timely s) (hphase : after.phase = s.phase)
    (hstage : after.stage = s.stage) : Timely after := by
  refine ⟨?_, ?_⟩
  · rw [hphase, hstage]
    exact h.fresh
  · rw [hphase, hstage]
    exact h.stopped

/-- A session whose connection goes on by itself keeps its phase. So the agreement is kept if the
connection neither begins nor begins to close. -/
theorem Timely.of_steady (h : Timely s) (hsteady : Steady s after) : Timely after := by
  refine ⟨fun hidle => ?_, fun hending => ?_⟩
  · rw [hsteady.moves.phase] at hidle
    exact hsteady.unopened (h.fresh hidle)
  · rw [hsteady.moves.phase]
    exact h.stopped (hsteady.ending hending)

/-- A start that succeeds sets phase and stage together. One that is refused changes nothing. -/
theorem Timely.start (h : Timely s) : Timely (s.take .start) := by
  show Timely (s.start.toOption.getD s)
  unfold Session.start
  split
  · exact ⟨nofun, nofun⟩
  · exact h
  · exact h

/-- A stop sets the phase before it touches the connection, so closing comes only after that. -/
theorem Timely.stop (h : Timely s) : Timely s.stop := by
  unfold Session.stop
  split
  · exact h
  · have hmoves := moves_release { s with
      phase := .stopped, indicator := s.indicator.tearDown, documents := [] }
    refine ⟨fun hidle => ?_, fun _ => hmoves.phase⟩
    rw [hmoves.phase] at hidle
    exact nomatch hidle

/-- What the server says may change the phase, and the stage stays. It makes only a session that is
connecting ready, and such a session is not being stopped. -/
theorem Timely.ambient (h : Timely s) (e : Rpc.Event Handler) : Timely (s.ambient e) := by
  cases hconnection : s.connection with
  | none => rwa [Session.ambient, hconnection]
  | some connection =>
    obtain ⟨relayed, heq⟩ := ambient_eq_heeding hconnection e
    rw [heq, heeding]
    split
    · unfold markReady
      split
      · -- A session that is connecting is not being stopped.
        rename_i hphase
        refine ⟨by simp, fun hending => ?_⟩
        exact absurd ((h.stopped hending).symm.trans hphase) (by decide)
      · exact h.congr rfl rfl
    · exact h.congr rfl rfl

/-- Every step keeps phase and stage in agreement. Requests set both, and what goes on by itself is
`Steady`. -/
theorem Timely.step (h : Timely s) (e : Event) : Timely (s.step e) := by
  unfold Session.step
  split
  · exact h
  cases e with
  | start => exact h.start
  | openDocument d =>
    -- Opening and closing documents change what is tracked, and neither the phase nor the stage.
    have hopening := opening s d
    generalize s.take (.openDocument d) = after at hopening ⊢
    cases hopening with
    | same => exact h
    | deferred => exact h.congr rfl rfl
    | told => exact h.congr rfl rfl
  | closeDocument uri =>
    have hclosing := closing s uri
    generalize s.take (.closeDocument uri) = after at hclosing ⊢
    cases hclosing with
    | same => exact h
    | deferred => exact h.congr rfl rfl
    | told => exact h.congr rfl rfl
    | lost => exact h.congr rfl rfl
  | stop => exact h.stop
  -- These go on with what has been requested. They may change the phase, and only as the stage
  -- allows.
  | dialed refusal => exact h.of_steady (steady_dialed s refusal)
  | spawned verdict => exact h.of_steady (steady_spawned s verdict)
  | resume => exact h.of_steady (steady_resume s)
  | expire => exact h.of_steady (steady_expire s)
  | ambient inner =>
    show Timely (if inner.isAmbient then s.ambient inner else s)
    split
    · exact h.ambient inner
    · exact h
  | child inner =>
    show Timely (if inner.isAmbient then s.child inner else s)
    split
    · exact h.congr rfl rfl
    · exact h

/-- Phase and stage agree after any run. By induction on the events, of which the last is one more
step. -/
theorem timely_run (config : Config) (processId : Nat) (events : List Event) :
    Timely (ran config processId events) := by
  induction events using List.reverseRecOn with
  | nil => exact ⟨fun _ => rfl, nofun⟩
  | append_singleton events e ih =>
    rw [ran_concat]
    exact ih.step e

end LanguageClient.Session
