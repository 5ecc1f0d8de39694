import LanguageClient.Proofs.Session.Conversation

/-!
# `LanguageClient.Proofs.Session.Readiness`: how far a session is, and what it shows

The owner of a session sees its phase, and the user sees its status item. Both change in the
same three steps only (`Shift`): a start that succeeds, the notification of a server that it
is ready, and the first stop. So they agree at every moment of every run, however often and
whenever the owner asks and the server speaks (`presented`).

* `Dispatches`: the server has said that it is ready, and its message is taken.
* `Timely.shift`: what any step does to the phase and to the status item.
* `Shown`: which calls have been made on the item, by what has happened so far.
-/

set_option autoImplicit false

namespace LanguageClient.Session

open Rpc Status

variable {s : Session}

/-! ### What the server says -/

/-- A step takes the notification of the server that it is ready. -/
def Dispatches (s : Session) (e : Event) : Prop :=
  e = .ambient .receiveNext ∧ ∃ connection payload n, s.connection = some connection ∧
    connection.client.rpc.Arrives payload ∧
    Message.parse payload = .ok (.notification n) ∧ n.method = readyMethod

/-- One method only is about readiness. All others that have a handler are relayed to the log, so
the handler itself tells which method it was set for. -/
theorem lookup_callees (method : String) :
    callees.handlers.lookup method = some .readiness ↔ method = readyMethod := by
  have hrelayed : ∀ methods : List String,
      (methods.map (·, Handler.relay)).lookup method ≠ some .readiness := by
    intro methods
    induction methods with
    | nil => exact nofun
    | cons m methods ih =>
      rw [List.map_cons, List.lookup_cons]
      split
      · exact nofun
      · exact ih
  constructor
  · intro h
    rw [callees, List.lookup_append] at h
    rcases Option.or_eq_some_iff.mp h with h | ⟨-, h⟩
    · -- The relayed methods come first in the table, but none of them has this handler.
      exact absurd h (hrelayed _)
    · rw [List.lookup_cons] at h
      split at h
      · rename_i heq
        exact eq_of_beq heq
      · exact nomatch h
  · rintro rfl
    decide

/-- The handler for readiness is called for a notification of its method, and for nothing else that
can arrive. -/
theorem any_heard {c : Client Handler} (hsetup : c.setup = callees) (payload : List Char) :
    (c.heard payload).any isReadiness = true ↔
      ∃ n, Message.parse payload = .ok (.notification n) ∧ n.method = readyMethod := by
  have hhandlers : c.handlers = callees.handlers := congrArg Setup.handlers hsetup
  unfold Client.heard
  rw [hhandlers]
  cases hparse : Message.parse payload with
  | error e => exact ⟨nofun, nofun⟩
  | ok m =>
    cases m with
    | response r => exact ⟨nofun, nofun⟩
    | request r =>
      -- A request of the server goes to whoever answers, never to a notification handler.
      refine ⟨fun h => ?_, nofun⟩
      dsimp only at h
      cases hreplier : c.replier with
      | none =>
        rw [hreplier] at h
        exact nomatch h
      | some reply =>
        rw [hreplier] at h
        exact nomatch h
    | notification n =>
      -- The handler that is looked up is the one for readiness just when the method is its own.
      refine Iff.trans (b := callees.handlers.lookup n.method = some .readiness) ?_
        ((lookup_callees _).trans ⟨fun hmethod => ⟨n, rfl, hmethod⟩, ?_⟩)
      · dsimp only
        cases callees.handlers.lookup n.method with
        | none => exact ⟨nofun, nofun⟩
        | some handler =>
          cases handler with
          | readiness => exact ⟨fun _ => rfl, fun _ => rfl⟩
          | relay => exact ⟨nofun, nofun⟩
      · rintro ⟨_, heq, hmethod⟩
        cases heq
        exact hmethod

/-- A step of the connection is news of readiness just when it takes the notification. The handlers
are those that were set before the first message was sent (`Conducted.setup`), so none of them is
missing or replaced. -/
theorem dispatches_iff (h : Standing s) {connection : Connection}
    (hconnection : s.connection = some connection) (inner : Rpc.Event Handler) :
    Dispatches s (.ambient inner) ↔ (news connection inner).any isReadiness = true := by
  have hsetup := (h.conducted hconnection).setup
  constructor
  · -- What a payload calls is all that is new after it has been taken.
    rintro ⟨heq, c, payload, n, hc, harrives, hparse, hmethod⟩
    obtain rfl := Event.ambient.inj heq
    obtain rfl := Option.some.inj (hc.symm.trans hconnection)
    rw [news, (Client.handled_of_arrives harrives).1, List.drop_left]
    exact (any_heard hsetup payload).mpr ⟨n, hparse, hmethod⟩
  · intro hany
    -- Had nothing been taken, there would be no news.
    by_cases htaken : inner = .receiveNext ∧ ∃ payload, connection.client.rpc.Arrives payload
    · obtain ⟨rfl, payload, harrives⟩ := htaken
      rw [news, (Client.handled_of_arrives harrives).1, List.drop_left] at hany
      obtain ⟨n, hparse, hmethod⟩ := (any_heard hsetup payload).mp hany
      exact ⟨rfl, connection, payload, n, hconnection, harrives, hparse, hmethod⟩
    · have hsame := (advance_step connection.client.rpc inner).handled
        fun heq payload harrives => htaken ⟨heq, payload, harrives⟩
      rw [news, hsame, List.drop_length] at hany
      exact nomatch hany

/-! ### Steps -/

/-- What a step does to the phase of a session and to its status item. -/
inductive Shift (s : Session) (e : Event) : Phase → Indicator → Prop where
  | keep (start : e = .start → s.phase ≠ .idle) (stop : e = .stop → s.phase = .stopped)
      (ready : s.phase = .connecting → ¬ Dispatches s e) : Shift s e s.phase s.indicator
  | start (asked : e = .start) (idle : s.phase = .idle) :
      Shift s e .connecting s.indicator.showStarting
  | ready (told : Dispatches s e) (connecting : s.phase = .connecting) :
      Shift s e .ready s.indicator.showRunning.2
  | stop (asked : e = .stop) (running : s.phase ≠ .stopped) :
      Shift s e .stopped s.indicator.tearDown

/-- Whether the owner starts or stops a session, or something happens on its connection. -/
def Event.asks : Event → Bool
  | .start | .stop | .ambient _ => true
  | _ => false

/-- Neither the owner nor the server asks for anything in a step. -/
structure Unasked (s : Session) (e : Event) : Prop where
  start : e ≠ .start
  stop : e ≠ .stop
  ready : ¬ Dispatches s e

/-- Most events ask for nothing, whatever the state. -/
theorem unasked {e : Event} (h : e.asks = false) : Unasked s e where
  start := by rintro rfl; cases h
  stop := by rintro rfl; cases h
  ready := by rintro ⟨rfl, -⟩; cases h

/-- What happens on the connection asks for something only if it is the notification. -/
theorem unasked_ambient {inner : Rpc.Event Handler} (h : ¬ Dispatches s (.ambient inner)) :
    Unasked s (.ambient inner) := ⟨by simp, by simp, h⟩

/-- Nothing is asked for, and nothing changes. This covers all events but a start, a stop and the
notification. -/
theorem Shift.of_same {e : Event} {phase : Phase} {indicator : Indicator}
    (hphase : phase = s.phase) (hindicator : indicator = s.indicator) (h : Unasked s e) :
    Shift s e phase indicator := by
  subst hphase hindicator
  exact .keep (fun hstart => absurd hstart h.start) (fun hstop => absurd hstop h.stop)
    fun _ => h.ready

/-- A session whose connection goes on keeps phase and item. -/
theorem Shift.of_moves {e : Event} {after : Session} (h : Moves s after) (hasks : e.asks = false) :
    Shift s e after.phase after.indicator := .of_same h.phase h.indicator (unasked hasks)

/-- A start of a session that is not idle is refused. -/
theorem Shift.keep_start (h : s.phase ≠ .idle) : Shift s .start s.phase s.indicator :=
  .keep (fun _ => h) (by simp) fun _ htold => by cases htold.1

/-- A stop of a session that was stopped does nothing. -/
theorem Shift.keep_stop (h : s.phase = .stopped) : Shift s .stop s.phase s.indicator :=
  .keep (by simp) (fun _ => h) fun _ htold => by cases htold.1

/-- The notification counts only while the session connects. -/
theorem Shift.keep_ambient {inner : Rpc.Event Handler} (h : s.phase ≠ .connecting) :
    Shift s (.ambient inner) s.phase s.indicator :=
  .keep (by simp) (by simp) fun hconnecting => absurd hconnecting h

/-- What a start does: it succeeds just when the session is idle, and then it shows that the session
starts. -/
theorem shift_start (s : Session) :
    Shift s .start (s.take .start).phase (s.take .start).indicator := by
  show Shift s .start (s.start.toOption.getD s).phase (s.start.toOption.getD s).indicator
  unfold Session.start
  split
  · rename_i hidle
    exact .start rfl hidle
  · rename_i hstopped
    exact .keep_start (by rw [hstopped]; decide)
  · rename_i hidle _
    exact .keep_start hidle

/-- What a stop does: the first one puts the item away, and all others nothing. Releasing the
connection changes neither the phase nor the item. -/
theorem shift_stop (s : Session) : Shift s .stop s.stop.phase s.stop.indicator := by
  unfold Session.stop
  split
  · rename_i hstopped
    exact .keep_stop hstopped
  · rename_i hrunning
    have hmoves := moves_release { s with
      phase := .stopped, indicator := s.indicator.tearDown, documents := [] }
    rw [hmoves.phase, hmoves.indicator]
    exact .stop rfl hrunning

/-- What happens on the connection changes the phase only if it is the notification, and shows it by
then. `Standing` is needed for the handlers, by `dispatches_iff`. -/
theorem Standing.shift_ambient (h : Standing s) (inner : Rpc.Event Handler) :
    Shift s (.ambient inner) (s.ambient inner).phase (s.ambient inner).indicator := by
  cases hconnection : s.connection with
  | none =>
    rw [Session.ambient, hconnection]
    refine .of_same rfl rfl (unasked_ambient ?_)
    rintro ⟨-, c, -, -, hc, -⟩
    cases hconnection.symm.trans hc
  | some connection =>
    have hdispatches := dispatches_iff h hconnection inner
    obtain ⟨relayed, heq⟩ := ambient_eq_heeding hconnection inner
    rw [heq]
    dsimp only
    unfold heeding
    split
    · rename_i hnews
      unfold markReady
      split
      · rename_i hconnecting
        exact .ready (hdispatches.mpr hnews) hconnecting
      · -- The notification comes again, or after a stop.
        rename_i hphase
        exact .keep_ambient hphase
    · rename_i hnone
      exact .of_same rfl rfl (unasked_ambient fun htold => hnone (hdispatches.mp htold))

/-- What a step does to the phase and to the status item. All cases but three change neither: a
start shows the item, news of the server may make it say that it runs, and a stop puts it away. -/
theorem Standing.shift (h : Standing s) (htimely : Timely s) (e : Event) :
    Shift s e (s.step e).phase (s.step e).indicator := by
  unfold Session.step
  split
  · -- While the owner waits for a stop to end nothing can be asked for.
    rename_i hblocked
    have hstopped := htimely.phase_of_isStopping hblocked.2
    refine .keep (fun _ => ?_) (fun _ => hstopped) fun hconnecting => ?_
    · rw [hstopped]
      decide
    · cases hstopped.symm.trans hconnecting
  cases e with
  | start => exact shift_start s
  | stop => exact shift_stop s
  | openDocument d =>
    -- Documents do not show in the phase or in the item, whichever of the courses is taken.
    have hopening := opening s d
    generalize s.take (.openDocument d) = after at hopening ⊢
    cases hopening with
    | same => exact .of_same rfl rfl (unasked rfl)
    | deferred => exact .of_same rfl rfl (unasked rfl)
    | told => exact .of_same rfl rfl (unasked rfl)
  | closeDocument uri =>
    have hclosing := closing s uri
    generalize s.take (.closeDocument uri) = after at hclosing ⊢
    cases hclosing with
    | same => exact .of_same rfl rfl (unasked rfl)
    | deferred => exact .of_same rfl rfl (unasked rfl)
    | told => exact .of_same rfl rfl (unasked rfl)
    | lost => exact .of_same rfl rfl (unasked rfl)
  | dialed refusal => exact .of_moves (moves_dialed s refusal) rfl
  | spawned verdict => exact .of_moves (moves_spawned s verdict) rfl
  | resume => exact .of_moves (moves_resume s) rfl
  | expire => exact .of_moves (moves_expire s) rfl
  | ambient inner =>
    -- News of the server may contain the notification that makes the session ready.
    by_cases hambient : inner.isAmbient = true
    · rw [Session.take, if_pos hambient]
      exact h.shift_ambient inner
    · rw [Session.take, if_neg hambient]
      refine .of_same rfl rfl (unasked_ambient ?_)
      rintro ⟨heq, -⟩
      obtain rfl := Event.ambient.inj heq
      exact hambient rfl
  | child inner =>
    rw [Session.take]
    split
    · exact .of_same rfl rfl (unasked rfl)
    · exact .of_same rfl rfl (unasked rfl)

/-- The order of the phases. -/
def Phase.rank : Phase → Nat
  | .idle => 0
  | .connecting => 1
  | .ready => 2
  | .stopped => 3

/-- No phase comes after a stop. -/
theorem Phase.rank_le_stopped (phase : Phase) : phase.rank ≤ Phase.stopped.rank := by
  cases phase <;> decide

variable {e : Event} {phase : Phase} {indicator : Indicator}

/-- A session does not go back to an earlier phase: each of the three changes leads on. -/
theorem Shift.rank_le (h : Shift s e phase indicator) : s.phase.rank ≤ phase.rank := by
  cases h with
  | keep => exact Nat.le_refl _
  | start _ idle => exact idle ▸ Nat.zero_le 1
  | ready _ connecting => exact connecting ▸ Nat.le_succ 1
  | stop => exact s.phase.rank_le_stopped

/-- After a start the session is not idle any more, whether the start has succeeded or was
refused. -/
theorem Shift.rank_ne_zero (h : Shift s .start phase indicator) : phase.rank ≠ 0 := by
  cases h with
  | keep start =>
    have hleft := start rfl
    revert hleft
    cases s.phase <;> decide
  | start => decide
  | ready => decide
  | stop => decide

/-- A session becomes ready by the notification, and only while it connects. The other changes lead
to phases that are not this one. -/
theorem Shift.ready_iff (h : Shift s e phase indicator) (hnot : s.phase ≠ .ready) :
    phase = .ready ↔ s.phase = .connecting ∧ Dispatches s e := by
  cases h with
  | keep _ _ ready => exact ⟨fun h => absurd h hnot, fun h => absurd h.2 (ready h.1)⟩
  | start asked => exact ⟨nofun, fun h => nomatch asked.symm.trans h.2.1⟩
  | ready told connecting => exact ⟨fun _ => ⟨connecting, told⟩, fun _ => rfl⟩
  | stop asked => exact ⟨nofun, fun h => nomatch asked.symm.trans h.2.1⟩

/-! ### What is shown -/

/-- The calls that show that a session is starting. -/
def startingCalls : List ItemCall :=
  .name itemName :: Descriptor.starting.calls ++ [.reveal]

/-- The calls that put the item away. -/
def endingCalls : List ItemCall := [.hide, .dispose]

/-- Calls that are made once something has happened, and are not made before. -/
def Block (happened : Prop) (block part : List ItemCall) : Prop :=
  happened ∧ part = block ∨ ¬happened ∧ part = []

/-- A call that was made belongs to the block of what has happened. -/
theorem Block.of_mem {happened : Prop} {block part : List ItemCall} {call : ItemCall}
    (h : Block happened block part) (hmem : call ∈ part) : happened ∧ call ∈ block := by
  rcases h with ⟨hhappened, rfl⟩ | ⟨-, rfl⟩
  · exact ⟨hhappened, hmem⟩
  · exact nomatch hmem

/-- The phase and the status item of a session that has been started or not, has become ready
or not, and has been stopped or not. -/
inductive Shown (started readied stopped : Prop) : Phase → Indicator → Prop where
  | idle (notStarted : ¬started) (notReadied : ¬readied) (notStopped : ¬stopped) :
      Shown started readied stopped .idle {}
  | connecting (isStarted : started) (notReadied : ¬readied) (notStopped : ¬stopped) :
      Shown started readied stopped .connecting
        { current := some .starting, calls := startingCalls }
  | ready (isStarted : started) (isReadied : readied) (notStopped : ¬stopped) :
      Shown started readied stopped .ready
        { current := some .running, calls := startingCalls ++ Descriptor.running.calls }
  | stopped {current : Option Descriptor} {starting running : List ItemCall}
      (isStarted : Block started startingCalls starting)
      (isReadied : Block readied Descriptor.running.calls running) (isStopped : stopped) :
      Shown started readied stopped .stopped
        { current, disposed := true, calls := starting ++ running ++ endingCalls }

section
variable {started readied stopped started' readied' stopped' : Prop}

/-- A session that is ready now was ready at some moment. -/
theorem Shown.isReadied (h : Shown started readied stopped phase indicator)
    (hphase : phase = .ready) : readied := by
  cases h with
  | ready _ isReadied => exact isReadied
  | _ => exact nomatch hphase

/-- A session that is stopped was asked to stop. -/
theorem Shown.isStopped (h : Shown started readied stopped phase indicator)
    (hphase : phase = .stopped) : stopped := by
  cases h with
  | stopped _ _ isStopped => exact isStopped
  | _ => exact nomatch hphase

/-- An idle session that is started makes its first calls on the item. -/
theorem Shown.showStarting (h : Shown started readied stopped phase indicator)
    (hphase : phase = .idle) (hstarted : started') :
    Shown started' readied stopped .connecting indicator.showStarting := by
  cases h with
  | idle _ notReadied notStopped => exact .connecting hstarted notReadied notStopped
  | _ => exact nomatch hphase

/-- A session that becomes ready while it connects shows that it runs. The item has shown by then
that it starts, and nothing else. -/
theorem Shown.showRunning (h : Shown started readied stopped phase indicator)
    (hphase : phase = .connecting) (hreadied : readied') :
    Shown started readied' stopped .ready indicator.showRunning.2 := by
  cases h with
  | connecting isStarted _ notStopped => exact .ready isStarted hreadied notStopped
  | _ => exact nomatch hphase

/-- Wherever a session is, stopping it puts the item away. What was shown before stays in front of
that. -/
theorem Shown.tearDown (h : Shown started readied stopped phase indicator)
    (hphase : phase ≠ .stopped) (hstopped : stopped') :
    Shown started readied stopped' .stopped indicator.tearDown := by
  cases h with
  | idle notStarted notReadied =>
    exact .stopped (.inr ⟨notStarted, rfl⟩) (.inr ⟨notReadied, rfl⟩) hstopped
  | connecting isStarted notReadied =>
    exact .stopped (.inl ⟨isStarted, rfl⟩) (.inr ⟨notReadied, rfl⟩) hstopped
  | ready isStarted isReadied =>
    exact .stopped (.inl ⟨isStarted, rfl⟩) (.inl ⟨isReadied, rfl⟩) hstopped
  | stopped => exact absurd rfl hphase

/-- The calls made so far, by what has happened so far. They come in three blocks, each there or
not. -/
theorem Shown.calls (h : Shown started readied stopped phase indicator) :
    ∃ starting running ending, indicator.calls = starting ++ running ++ ending ∧
      Block started startingCalls starting ∧ Block readied Descriptor.running.calls running ∧
      Block stopped endingCalls ending := by
  cases h with
  | idle notStarted notReadied notStopped =>
    exact ⟨[], [], [], rfl, .inr ⟨notStarted, rfl⟩, .inr ⟨notReadied, rfl⟩, .inr ⟨notStopped, rfl⟩⟩
  | connecting isStarted notReadied notStopped =>
    exact ⟨_, [], [], rfl, .inl ⟨isStarted, rfl⟩, .inr ⟨notReadied, rfl⟩, .inr ⟨notStopped, rfl⟩⟩
  | ready isStarted isReadied notStopped =>
    exact ⟨_, _, [], rfl, .inl ⟨isStarted, rfl⟩, .inl ⟨isReadied, rfl⟩, .inr ⟨notStopped, rfl⟩⟩
  | stopped isStarted isReadied isStopped =>
    exact ⟨_, _, _, rfl, isStarted, isReadied, .inl ⟨isStopped, rfl⟩⟩

/-- What is shown follows what happens in a step. `started'`, `readied'` and `stopped'` say of the
run with this step what the others say of the run before it; the cases are the four forms of a
`Shift`. -/
theorem Shown.shift (h : Shown started readied stopped s.phase s.indicator)
    (hshift : Shift s e phase indicator)
    (hstarted : started' ↔ started ∨ e = .start ∧ s.phase = .idle)
    (hreadied : readied' ↔ readied ∨ phase = .ready)
    (hstopped : stopped' ↔ stopped ∨ e = .stop) :
    Shown started' readied' stopped' phase indicator := by
  cases hshift with
  | keep start stop =>
    -- What is true of the longer run was true of the shorter one, since the step asks for nothing
    -- new.
    obtain rfl := propext (hstarted.trans (or_iff_left fun hstart => start hstart.1 hstart.2))
    obtain rfl := propext (hreadied.trans (or_iff_left_of_imp h.isReadied))
    obtain rfl := propext (hstopped.trans
      (or_iff_left_of_imp fun hstop => h.isStopped (stop hstop)))
    exact h
  | start asked idle =>
    obtain rfl := propext (hreadied.trans (or_iff_left (by decide)))
    obtain rfl := propext (hstopped.trans (or_iff_left (by simp [asked])))
    exact h.showStarting idle (hstarted.mpr (.inr ⟨asked, idle⟩))
  | ready told connecting =>
    obtain rfl := propext (hstarted.trans (or_iff_left (by simp [told.1])))
    obtain rfl := propext (hstopped.trans (or_iff_left (by simp [told.1])))
    exact h.showRunning connecting (hreadied.mpr (.inr rfl))
  | stop asked running =>
    obtain rfl := propext (hstarted.trans (or_iff_left (by simp [asked])))
    obtain rfl := propext (hreadied.trans (or_iff_left (by decide)))
    exact h.tearDown running (hstopped.mpr (.inr asked))

end

/-! ### Runs -/

section
variable (config : Config) (processId : Nat)

/-- A start has succeeded. -/
def Started (events : List Event) : Prop :=
  ∃ before after next, events = before ++ .start :: after ∧
    (ran config processId before).start = .ok next

/-- At some moment the session was ready. -/
def Readied (events : List Event) : Prop :=
  ∃ before, before <+: events ∧ (ran config processId before).phase = .ready

end

variable {config : Config} {processId : Nat}

/-- Only an idle session can be started, and an idle one always can. So the answer to a start is
known from the phase. -/
theorem start_eq_ok : (∃ next, s.start = .ok next) ↔ s.phase = .idle := by
  unfold Session.start
  constructor
  · rintro ⟨next, h⟩
    split at h
    · assumption
    · exact nomatch h
    · exact nomatch h
  · intro h
    rw [h]
    exact ⟨_, rfl⟩

/-- A start has succeeded in a run if it did so before the last event, or if that is one and the
session was idle. -/
theorem started_concat (events : List Event) (e : Event) :
    Started config processId (events ++ [e]) ↔
      Started config processId events ∨
        e = .start ∧ (ran config processId events).phase = .idle := by
  constructor
  · rintro ⟨before, after, next, hsplit, hstart⟩
    rcases List.eq_nil_or_concat after with rfl | ⟨front, last, rfl⟩
    · -- The start in question is the last event.
      obtain ⟨rfl, hlast⟩ := List.append_inj' hsplit rfl
      exact .inr ⟨List.head_eq_of_cons_eq hlast, start_eq_ok.mp ⟨next, hstart⟩⟩
    · rw [List.concat_eq_append, ← List.cons_append, ← List.append_assoc] at hsplit
      exact .inl ⟨before, front, next, List.append_inj_left' hsplit rfl, hstart⟩
  · rintro (⟨before, after, next, rfl, hstart⟩ | ⟨rfl, hidle⟩)
    · exact ⟨before, after ++ [e], next, by rw [List.append_assoc, List.cons_append], hstart⟩
    · obtain ⟨next, hstart⟩ := start_eq_ok.mpr hidle
      exact ⟨events, [], next, rfl, hstart⟩

/-- A session was ready in a run if it was so before the last event, or is so after it. This is what
inductions on a run take its last event off by. -/
theorem readied_concat (events : List Event) (e : Event) :
    Readied config processId (events ++ [e]) ↔
      Readied config processId events ∨
        (ran config processId (events ++ [e])).phase = .ready := by
  constructor
  · rintro ⟨before, hbefore, hready⟩
    rcases List.prefix_concat_iff.mp hbefore with rfl | hbefore
    · exact .inr hready
    · exact .inl ⟨before, hbefore, hready⟩
  · rintro (⟨before, hbefore, hready⟩ | hready)
    · exact ⟨before, hbefore.trans (List.prefix_append _ _), hready⟩
    · exact ⟨_, List.prefix_rfl, hready⟩

variable (config processId)

/-- What a step of a run does. Both conditions of `Standing.shift` hold in every run. -/
theorem shift_run (events : List Event) (e : Event) :
    Shift (ran config processId events) e (ran config processId (events ++ [e])).phase
      (ran config processId (events ++ [e])).indicator := by
  rw [ran_concat]
  exact (standing_run config processId events).shift (timely_run config processId events) e

/-- In a run no phase comes after a later one. By induction on the events that come behind, since no
step goes back. -/
theorem rank_run (before after : List Event) :
    (ran config processId before).phase.rank ≤
      (ran config processId (before ++ after)).phase.rank := by
  induction after using List.reverseRecOn with
  | nil => simp only [List.append_nil, Nat.le_refl]
  | append_singleton after e ih =>
    rw [← List.append_assoc]
    exact Nat.le_trans ih (shift_run config processId (before ++ after) e).rank_le

/-- What is shown after a run, by what has happened in it. The induction takes the last event, which
does what `Shown.shift` says. -/
theorem shown_run (events : List Event) :
    Shown (Started config processId events) (Readied config processId events)
      (.stop ∈ events) (ran config processId events).phase
      (ran config processId events).indicator := by
  induction events using List.reverseRecOn with
  | nil =>
    refine .idle ?_ ?_ nofun
    · rintro ⟨before, after, -, hsplit, -⟩
      exact absurd hsplit.symm (by simp)
    · rintro ⟨before, hbefore, hready⟩
      rw [List.prefix_nil.mp hbefore] at hready
      exact nomatch hready
  | append_singleton events e ih =>
    refine ih.shift (shift_run config processId events e) (started_concat events e)
      (readied_concat events e) ?_
    rw [List.mem_append, List.mem_singleton, eq_comm (a := Event.stop)]

/-- How far a session is and what it shows after a run. -/
structure Presented (events : List Event) : Prop where
  /-- It has never gone back. -/
  forward : ∀ before, before <+: events →
    (ran config processId before).phase.rank ≤ (ran config processId events).phase.rank
  /-- It can be started while it is idle. -/
  start : (∃ next, (ran config processId events).start = .ok next) ↔
    (ran config processId events).phase = .idle
  alreadyStarted : (ran config processId events).start = .error .alreadyStarted ↔
    (ran config processId events).phase = .connecting ∨
      (ran config processId events).phase = .ready
  stopped : (ran config processId events).start = .error .stopped ↔
    (ran config processId events).phase = .stopped
  /-- A start that fails changes nothing. -/
  failed : ∀ e, (ran config processId events).start = .error e →
    ran config processId (events ++ [.start]) = ran config processId events
  /-- Once it was asked to start, asking again fails. -/
  once : .start ∈ events → ∃ e, (ran config processId events).start = .error e
  /-- It becomes ready when it takes the notification while it connects. -/
  ready : ∀ e, (ran config processId events).phase ≠ .ready →
    ((ran config processId (events ++ [e])).phase = .ready ↔
      (ran config processId events).phase = .connecting ∧
        Dispatches (ran config processId events) e)
  /-- All calls on its item: when it was started, when it became ready, when it was stopped. -/
  calls : ∃ starting running ending,
    (ran config processId events).indicator.calls = starting ++ running ++ ending ∧
    Block (Started config processId events) startingCalls starting ∧
    Block (Readied config processId events) Descriptor.running.calls running ∧
    Block (.stop ∈ events) endingCalls ending

/-- What the owner is told about a start that fails: whether the session was started before or has
been stopped. -/
theorem start_eq_error (s : Session) :
    (s.start = .error .alreadyStarted ↔ s.phase = .connecting ∨ s.phase = .ready) ∧
      (s.start = .error .stopped ↔ s.phase = .stopped) := by
  unfold Session.start
  cases s.phase <;> exact ⟨by simp, by simp⟩

/-- A session that has been asked to start once cannot be started again, since the phase never
returns to the first. -/
theorem start_of_mem {events : List Event} (h : .start ∈ events) :
    ∃ e, (ran config processId events).start = .error e := by
  obtain ⟨before, after, rfl⟩ := List.append_of_mem h
  have hleft := (shift_run config processId before .start).rank_ne_zero
  have hrank := rank_run config processId (before ++ [.start]) after
  rw [List.append_assoc, List.singleton_append] at hrank
  cases hstart : (ran config processId (before ++ .start :: after)).start with
  | error e => exact ⟨e, rfl⟩
  | ok next =>
    rw [start_eq_ok.mp ⟨next, hstart⟩] at hrank
    exact absurd (Nat.le_zero.mp hrank) hleft

/-- However often and whenever the owner asks and the server speaks, phase and status item agree.
What is said of one step is `shift_run`; what is said of all calls on the item is `shown_run`. -/
theorem presented (events : List Event) : Presented config processId events where
  forward before hbefore := by
    obtain ⟨after, rfl⟩ := hbefore
    exact rank_run config processId before after
  start := start_eq_ok
  alreadyStarted := (start_eq_error _).1
  stopped := (start_eq_error _).2
  -- A request that is refused leaves the session as it was.
  failed e hfailed := by
    rw [ran_concat, Session.step]
    split
    · rfl
    · rw [Session.take, hfailed]
      rfl
  once := start_of_mem config processId
  ready e hnot := (shift_run config processId events e).ready_iff hnot
  calls := (shown_run config processId events).calls

/-- A session that is stopped before its server is ready never shows that it is running. -/
example : (ran config processId [.start, .stop]).indicator.calls = startingCalls ++ endingCalls :=
  rfl

end LanguageClient.Session
