import LanguageClient.Proofs.Session.Custody
import LanguageClient.Proofs.Session.Readiness

/-!
# `LanguageClient.Proofs.Session.Stopping`: sessions that have been stopped

What holds of a session that has been stopped (`Stopping`), whatever the server does and
whatever else happens: nothing can be asked of it any more, and of what it has only the
connection goes on (`Retires`), which is closed and then left. The connection is closed
first, and then a server that was spawned is waited for (`Ending`).

A stop waits for one thing at a time (`awaits`): that the time is over, once for `shutdown`
and once for the dispatcher; that the spawned server exits; that this is noticed; and that
the stop goes on. It may also be spared to wait, but it never has to wait for something
again. `Stopping` counts how much there is to wait for at most. One lemma says that a step
keeps this, and that it is less once something happens that is waited for
(`Stopping.step`). So nothing in between can hold up a stop (`Stopping.run_of_granted`).
-/

set_option autoImplicit false

namespace LanguageClient.Session

open LanguageServer Rpc
open ChildProcess (Spares Awaits Leaves Fate)

variable {s after : Session} {c : Connection} {rest : Nat}

/-! ### What a stop waits for -/

/-- The server that was spawned for a session. -/
def child? (s : Session) : Option ChildProcess.Child :=
  s.connection.bind fun c => c.process.bind ChildProcess.Manager.current?

/-- Whether a session that stops waits for an event. -/
def awaits (s : Session) (e : Event) : Bool :=
  match s.stage, e with
  | .closing, .expire => true
  | .stoppingChild, .child (.exit 0) => s.child?.any fun child => !child.exited
  | .stoppingChild, .child (.reap 0) => s.child?.any fun child => child.exited && !child.reaped
  | .stoppingChild, .resume => s.child?.any ChildProcess.Child.reaped
  | _, _ => false

/-- The events that a stop can wait for: that something goes on, that it took too long, and
what a server does by itself. -/
def Event.isDue : Event → Bool
  | .resume | .expire => true
  | .child inner => inner.isAmbient
  | _ => false

/-- What the owner asks for and what arrives on the connection is nothing that a stop waits for. It
waits for time, for its child, or for the client to go on. -/
theorem awaits_of_not_isDue {e : Event} (h : e.isDue = false) : s.awaits e = false := by
  unfold awaits
  split
  · cases h
  · cases h
  · cases h
  · cases h
  · rfl

/-- How often it happens in a run that a session waits for an event. -/
def granted (s : Session) : List Event → Nat
  | [] => 0
  | e :: events => (if s.awaits e then 1 else 0) + (s.step e).granted events

/-- After an event there is as much to wait for as before, or one thing less if it was waited
for. -/
def Spends (s : Session) (e : Event) (rest rest' : Nat) : Prop :=
  rest' = rest ∨ rest = rest' + 1 ∧ s.awaits e = true

/-- Nothing is spent by an event that was not waited for. -/
theorem Spends.eq {e : Event} {rest' : Nat} (h : Spends s e rest rest')
    (hother : s.awaits e = false) : rest' = rest := by
  rcases h with hsame | ⟨-, hawaits⟩
  · exact hsame
  · exact nomatch hother.symm.trans hawaits

/-- The server that was spawned for a session is the only child of its process manager. -/
theorem child?_of_connection {client : LanguageServer.Client Handler} {m : ChildProcess.Manager}
    {child : ChildProcess.Child}
    (hconnection : s.connection = some { client, process := some m })
    (honly : m.children = [child]) : s.child? = some child := by
  rw [child?, hconnection]
  show m.children.getLast? = some child
  rw [honly]
  rfl

/-- What a session waits for once its connection is closed: that the server exits, that this is
noticed, or that the stop goes on. Which one it is depends on how far the server is. -/
theorem awaits_of_stoppingChild {child : ChildProcess.Child} (hstage : s.stage = .stoppingChild)
    (hchild : s.child? = some child) {e : Event} (hawaits : s.awaits e = true) :
    e = .child (.exit 0) ∧ child.exited = false ∨
      e = .child (.reap 0) ∧ child.exited = true ∧ child.reaped = false ∨
      e = .resume ∧ child.reaped = true := by
  unfold awaits at hawaits
  rw [hstage, hchild] at hawaits
  split at hawaits
  · rename_i hclosing
    exact nomatch hclosing
  · exact .inl ⟨rfl, Bool.not_eq_true' _ ▸ hawaits⟩
  · obtain ⟨hexited, hreaped⟩ := Bool.and_eq_true_iff.mp hawaits
    exact .inr (.inl ⟨rfl, hexited, Bool.not_eq_true' _ ▸ hreaped⟩)
  · exact .inr (.inr ⟨rfl, hawaits⟩)
  · exact nomatch hawaits

/-! ### Sessions that stop -/

/-- Who has the connection of a session that has been stopped, while so much is due. -/
inductive Ending (rest : Nat) (s : Session) : Prop where
  | bare (stage : s.stage = .unopened ∨ s.stage = .abandoned) (connection : s.connection = none)
  | closing {c : Connection} (stage : s.stage = .closing) (connection : s.connection = some c)
      (spared : c.Spared) (closing : LanguageServer.Closing (rest - 3) c.client)
  | stopping {client : LanguageServer.Client Handler} {m : ChildProcess.Manager}
      {mode : ChildProcess.StopMode} {child : ChildProcess.Child}
      (stage : s.stage = .stoppingChild)
      (connection : s.connection = some { client, process := some m }) (gone : client.rpc.Gone)
      (told : mode = .graceful ↔ client.ToldExit) (awaits : Awaits m mode child)
      (exited : rest ≤ 2 → child.exited = true) (reaped : rest ≤ 1 → child.reaped = true)
      (left : 1 ≤ rest)
  | left {c : Connection} (stage : s.stage = .abandoned ∨ s.stage = .released)
      (connection : s.connection = some c) (left : c.Left (s.stage = .released))

/-- A session that has been stopped. -/
structure Stopping (rest : Nat) (s : Session) : Prop where
  phase : s.phase = .stopped
  documents : s.documents = []
  ending : Ending rest s

/-- All that changes in a session that has been stopped. -/
def Retires (s after : Session) : Prop :=
  ∃ stage connection relayed, after = { s with stage, connection, relayed }

/-- A session that does not change retires no further. -/
theorem Retires.refl (s : Session) : Retires s s := ⟨_, _, _, rfl⟩

/-- What changes in two steps is among what may change in one. -/
theorem Retires.trans {middle : Session} (h : Retires s middle) (h' : Retires middle after) :
    Retires s after := by
  obtain ⟨_, _, _, rfl⟩ := h
  obtain ⟨_, _, _, rfl⟩ := h'
  exact ⟨_, _, _, rfl⟩

/-- Phase and documents stay, so it is enough to say who has the connection afterwards. -/
theorem Stopping.of_retires (h : Stopping rest s) {rest' : Nat} (hretires : Retires s after)
    (hending : Ending rest' after) : Stopping rest' after ∧ Retires s after := by
  obtain ⟨stage, connection, relayed, rfl⟩ := hretires
  exact ⟨⟨h.phase, h.documents, hending⟩, ⟨stage, connection, relayed, rfl⟩⟩

/-- The attempt to connect is over, and no connection is held. So a dial or a spawn that comes too
late finds nobody waiting for it. -/
theorem Ending.stage (h : Ending rest s) :
    s.stage ≠ .opening ∧ s.stage ≠ .handshaking ∧ s.stage ≠ .held := by
  rcases h with ⟨hstage | hstage, -⟩ | ⟨hstage⟩ | ⟨hstage⟩ | ⟨hstage | hstage⟩ <;>
    rw [hstage] <;> decide

/-- Whether nothing goes on by itself at a stage after a stop. -/
def Stage.isStill : Stage → Bool
  | .unopened | .abandoned | .released => true
  | .opening | .handshaking | .held | .closing | .stoppingChild => false

/-- Without a connection nothing goes on by itself. -/
theorem isStill_of_bare (h : s.stage = .unopened ∨ s.stage = .abandoned) :
    s.stage.isStill = true := by
  rcases h with h | h
  · rw [h]
    rfl
  · rw [h]
    rfl

/-- Over a connection that was let go nothing goes on by itself. -/
theorem isStill_of_left (h : s.stage = .abandoned ∨ s.stage = .released) :
    s.stage.isStill = true := by
  rcases h with h | h
  · rw [h]
    rfl
  · rw [h]
    rfl

/-- A stop has returned when nothing goes on by itself any more. -/
theorem Stopping.hasStopped_of_still (h : Stopping rest s) (hstill : s.stage.isStill = true) :
    s.hasStopped = true := by
  unfold Session.hasStopped isStopping
  rw [h.phase]
  revert hstill
  cases s.stage <;> decide

/-- When nothing is due any more the stop has come to its end. Both stages that wait for something
need some of it to be left. -/
theorem Stopping.hasStopped (h : Stopping 0 s) : s.hasStopped = true := by
  refine h.hasStopped_of_still ?_
  cases h.ending with
  | bare stage => exact isStill_of_bare stage
  | closing _ _ _ closing => exact absurd closing (not_closing_zero _)
  | stopping _ _ _ _ _ _ _ left => exact absurd left (by decide)
  | left stage => exact isStill_of_left stage

/-- When a session has come to its end, nothing is due any more, however much was allowed for. The
stages that still wait for something are excluded by `hasStopped`. -/
theorem Stopping.of_hasStopped (h : Stopping rest s) (hended : s.hasStopped = true) :
    Stopping 0 s := by
  have hdone : s.isStopping = false := by
    unfold Session.hasStopped at hended
    exact Bool.not_eq_true' _ ▸ (Bool.and_eq_true_iff.mp hended).2
  -- Of the four ways to be stopped the two that wait are excluded by this.
  unfold isStopping at hdone
  refine ⟨h.phase, h.documents, ?_⟩
  cases h.ending with
  | bare stage connection => exact .bare stage connection
  | left stage connection left => exact .left stage connection left
  | closing stage =>
    rw [stage] at hdone
    exact nomatch hdone
  | stopping stage =>
    rw [stage] at hdone
    exact nomatch hdone

/-- A session with nothing due waits for nothing. The stages that wait for something have something
due. -/
theorem Stopping.awaits_eq_false (h : Stopping 0 s) (e : Event) : s.awaits e = false := by
  unfold awaits
  cases h.ending with
  | bare stage => rcases stage with stage | stage <;> rw [stage]
  | left stage => rcases stage with stage | stage <;> rw [stage]
  | closing _ _ _ closing => exact absurd closing (not_closing_zero _)
  | stopping _ _ _ _ _ _ _ left => exact absurd left (by decide)

/-- Until the stop has come to its end there is something that it waits for. So it never hangs
without a reason: its time can always run out, or its server can exit. -/
theorem Stopping.exists_awaits (h : Stopping rest s) (hgoes : s.hasStopped = false) :
    ∃ e, s.awaits e = true := by
  have hbusy : s.stage.isStill = false := by
    rw [← Bool.not_eq_true]
    exact fun hstill => nomatch hgoes.symm.trans (h.hasStopped_of_still hstill)
  unfold awaits
  cases h.ending with
  | bare stage => exact nomatch hbusy.symm.trans (isStill_of_bare stage)
  | left stage => exact nomatch hbusy.symm.trans (isStill_of_left stage)
  | closing stage =>
    -- While the connection is being closed, the time may run out.
    rw [stage]
    exact ⟨.expire, rfl⟩
  | @stopping client m mode child stage connection gone told awaits =>
    -- The server has to exit, then this has to be noticed, and then the stop goes on.
    rw [stage, child?_of_connection connection awaits.only]
    cases hexited : child.exited with
    | false => exact ⟨.child (.exit 0), congrArg (! ·) hexited⟩
    | true =>
      cases hreaped : child.reaped with
      | false =>
        refine ⟨.child (.reap 0), ?_⟩
        show (child.exited && !child.reaped) = true
        rw [hexited, hreaped]
        rfl
      | true => exact ⟨.resume, hreaped⟩

/-! ### Closing the connection -/

/-- Waiting for the server to exit changes stage and connection only. -/
theorem retires_continueStop (s : Session) : Retires s s.continueStop := by
  unfold continueStop
  split
  · exact ⟨_, _, _, rfl⟩
  · exact ⟨_, _, _, rfl⟩

/-- Closing the connection, and what follows it, changes stage and connection only. So phase,
documents and failure are those that the stop has left. -/
theorem retires_continueClose (s : Session)
    (progress : Option Answer × LanguageServer.Client Handler) :
    Retires s (s.continueClose progress) := by
  have hwith : Retires s (s.withClient progress.2) := ⟨_, _, _, rfl⟩
  refine hwith.trans ?_
  unfold continueClose
  dsimp only
  split
  · unfold afterClose
    dsimp only
    split
    · split
      · exact Retires.trans ⟨_, _, _, rfl⟩ (retires_continueStop _)
      · exact ⟨_, _, _, rfl⟩
    · exact ⟨_, _, _, rfl⟩
  · exact .refl _

/-- The stop goes on: it is over once the exit of the server is noticed, and until then it waits as
before. -/
theorem ending_continueStop {client : LanguageServer.Client Handler} {m : ChildProcess.Manager}
    {mode : ChildProcess.StopMode} {child : ChildProcess.Child}
    (hstage : s.stage = .stoppingChild)
    (hconnection : s.connection = some { client, process := some m }) (hgone : client.rpc.Gone)
    (htold : mode = .graceful ↔ client.ToldExit) (hawaits : Awaits m mode child)
    (hexited : rest ≤ 2 → child.exited = true) (hreaped : rest ≤ 1 → child.reaped = true) :
    Ending rest s.continueStop := by
  unfold continueStop
  rw [hconnection]
  dsimp only
  rcases hawaits.proceed htold with ⟨hnot, hproceed⟩ | ⟨m', child', hproceed, hleaves, hfate, hexit⟩
  · -- Nobody has noticed the exit yet, so that was still due.
    have hopen : 1 < rest := by
      rw [← Nat.not_le]
      exact fun hle => nomatch hnot.symm.trans (hreaped hle)
    rw [hproceed]
    exact .stopping hstage rfl hgone htold hawaits hexited hreaped (Nat.le_of_lt hopen)
  · -- The exit has been noticed. The server has met its fate, and nothing more is due.
    rw [hproceed]
    refine .left (.inr rfl) rfl ⟨hgone, fun after hafter => ?_⟩
    obtain rfl := Option.some.inj hafter
    exact ⟨child', hleaves, hfate, fun _ => hexit⟩

/-- The connection is closed, and a server that was spawned and still runs gets its signal: by the
answer, which says whether it was told to exit. After that three things are due at most. -/
theorem ending_afterClose {client : LanguageServer.Client Handler}
    {process : Option ChildProcess.Manager} {answer : Answer}
    (hconnection : s.connection = some { client, process })
    (hspared : ∀ m, process = some m → ∃ child, Spares m child) (hgone : client.rpc.Gone)
    (htold : answer = .done ↔ client.ToldExit) (hrest : 3 ≤ rest) :
    Ending rest (s.afterClose answer) := by
  unfold afterClose
  rw [hconnection]
  cases process with
  | none =>
    -- There is no server to wait for.
    refine .left (c := { client }) (.inr rfl) rfl ⟨hgone, fun m hm => ?_⟩
    cases hm
  | some m =>
    obtain ⟨child, hspares⟩ := hspared m rfl
    cases hrunning : m.isRunning with
    | false =>
      -- The server has exited by itself, so there is nothing to stop.
      obtain ⟨hleaves, hfate, hexited⟩ := hspares.fate hrunning client.ToldExit
      have hrefused : ∀ mode, m.beginStop mode = .error .notStarted := fun mode =>
        if_neg (Bool.eq_false_iff.mp hrunning)
      dsimp only
      rw [hrefused]
      refine .left (c := { client, process := some m }) (.inr rfl) rfl ⟨hgone, fun m' hm' => ?_⟩
      obtain rfl := Option.some.inj hm'
      exact ⟨child, hleaves, hfate, fun _ => hexited⟩
    | true =>
      obtain ⟨m', child', hbegin, hawaits⟩ :=
        hspares.beginStop hrunning (if answer = .done then .graceful else .force)
      dsimp only
      rw [hbegin]
      refine ending_continueStop rfl rfl hgone (Iff.trans ?_ htold) hawaits ?_ ?_
      · -- The mode follows the answer, and the answer tells whether `exit` was accepted.
        split
        · exact ⟨fun _ => ‹_›, fun _ => rfl⟩
        · rename_i hnot
          constructor
          · intro hforce
            cases hforce
          · exact fun hdone => absurd hdone hnot
      · exact fun hle => absurd hle (by omega)
      · exact fun hle => absurd hle (by omega)

/-- Closing goes on, or it is done and the server's turn comes. The wait for the server takes the
last three units, which `hrest` keeps apart. -/
theorem ending_continueClose (hstage : s.stage = .closing) (hconnection : s.connection = some c)
    (hspared : c.Spared) {progress : Option Answer × LanguageServer.Client Handler}
    (h : Closed (rest - 3) progress) (hrest : 3 ≤ rest) :
    Ending rest (s.continueClose progress) := by
  have hwith : (s.withClient progress.2).connection = some { c with client := progress.2 } := by
    rw [withClient, hconnection]
    rfl
  cases h with
  | waits closing => exact .closing hstage hwith hspared closing
  | ends answer gone told => exact ending_afterClose hwith hspared gone told hrest

/-- Only a stop that has time left closes its connection: otherwise it would not wait for it. -/
theorem lt_of_closing {client : LanguageServer.Client Handler}
    (h : LanguageServer.Closing (rest - 3) client) : 3 < rest := by
  rw [← Nat.not_le]
  intro hle
  rw [Nat.sub_eq_zero_of_le hle] at h
  exact not_closing_zero client h

/-! ### Steps -/

/-- A session that has been stopped cannot be started. -/
theorem Stopping.start (h : Stopping rest s) : s.start = .error .stopped :=
  (start_eq_error s).2.mpr h.phase

/-- In a session that has been stopped no document can be opened. -/
theorem Stopping.openDocument (h : Stopping rest s) {d : Document} (hroutes : s.routes d = true) :
    s.openDocument d = .error .stopped := by
  rw [Session.openDocument, if_neg (not_not.mpr hroutes), if_pos h.phase]

/-- A session that has been stopped tracks no documents, so closing one changes nothing. -/
theorem Stopping.closeDocument (h : Stopping rest s) (uri : String) :
    s.closeDocument uri = (.ok false, s) := by
  have huntracked : ¬ s.tracks uri = true := by
    rw [tracks, h.documents]
    exact Bool.false_ne_true
  exact if_pos huntracked

/-- A second stop does nothing. -/
theorem Stopping.stop (h : Stopping rest s) : s.stop = s := if_pos h.phase

/-- Whatever is asked of a session that has been stopped changes nothing, whether the request is put
off or refused. -/
theorem Stopping.step_request (h : Stopping rest s) {e : Event} (hrequest : e.isRequest = true) :
    s.step e = s := by
  unfold Session.step
  split
  · rfl
  cases e with
  | start =>
    show s.start.toOption.getD s = s
    rw [h.start]
    rfl
  | openDocument d =>
    -- The phase is asked for before anything else, if the session routes the document at all.
    have hstep := step_openDocument_of_rejects (s := s) (d := d) (.inr (.inl h.phase))
    rwa [Session.step, if_neg ‹_›] at hstep
  | closeDocument uri => exact congrArg Prod.snd (h.closeDocument uri)
  | stop => exact h.stop
  | _ => cases hrequest

/-- A session in which nothing goes on does not go on: it waits for neither a client nor a child. -/
theorem resume_of_still (h : s.stage.isStill = true) : s.resume = s := by
  -- The three stages at which something goes on are not still.
  unfold Session.resume
  split
  · rename_i hstage _
    rw [hstage] at h
    cases h
  · rename_i hstage _
    rw [hstage] at h
    cases h
  · rename_i hstage
    rw [hstage] at h
    cases h
  · rfl

/-- No time runs for a session in which nothing goes on, so none can be over for it. -/
theorem expire_of_still (h : s.stage.isStill = true) : s.expire = s := by
  -- The three stages at which a time runs are not still.
  unfold Session.expire
  split
  · rename_i hstage _
    rw [hstage] at h
    cases h
  · rename_i hstage _
    rw [hstage] at h
    cases h
  · rename_i hstage _
    rw [hstage] at h
    cases h
  · rfl

/-- Going on keeps a session stopped. It is waited for only at the very end, when the exit of the
server has been noticed. -/
theorem Stopping.resume (h : Stopping rest s) {rest' : Nat}
    (hspends : Spends s .resume rest rest') : Stopping rest' s.resume ∧ Retires s s.resume := by
  cases h.ending with
  | bare stage connection =>
    rw [resume_of_still (isStill_of_bare stage)]
    exact h.of_retires (.refl s) (.bare stage connection)
  | left stage connection left =>
    rw [resume_of_still (isStill_of_left stage)]
    exact h.of_retires (.refl s) (.left stage connection left)
  | @closing c stage connection spared closing =>
    -- The farewell goes on. The session waits for its time, not for this.
    have hresume : s.resume = s.continueClose c.client.resume := by
      rw [Session.resume, stage, connection]
    obtain rfl := hspends.eq (by unfold awaits; rw [stage])
    rw [hresume]
    exact h.of_retires (retires_continueClose s _)
      (ending_continueClose stage connection spared closing.resume
        (Nat.le_of_lt (lt_of_closing closing)))
  | @stopping client m mode child stage connection gone told awaits exited reaped left =>
    have hresume : s.resume = s.continueStop := by rw [Session.resume, stage]
    have hchild := child?_of_connection connection awaits.only
    -- If the session waits for nothing but to go on, the exit has been noticed.
    have hnow : (rest' ≤ 2 → child.exited = true) ∧ (rest' ≤ 1 → child.reaped = true) := by
      -- What was noticed before stays noticed.
      rcases hspends with rfl | ⟨-, hawaits⟩
      · exact ⟨exited, reaped⟩
      · rcases awaits_of_stoppingChild stage hchild hawaits with ⟨heq, -⟩ | ⟨heq, -⟩ | ⟨-, hreaped⟩
        · exact nomatch heq
        · exact nomatch heq
        · exact ⟨fun _ => awaits.noticed hreaped, fun _ => hreaped⟩
    rw [hresume]
    exact h.of_retires (retires_continueStop s)
      (ending_continueStop stage connection gone told awaits hnow.1 hnow.2)

/-- Time that runs out keeps a session stopped. While the connection is being closed this is waited
for, and brings the end nearer. -/
theorem Stopping.expire (h : Stopping rest s) {rest' : Nat}
    (hspends : Spends s .expire rest rest') : Stopping rest' s.expire ∧ Retires s s.expire := by
  cases h.ending with
  | bare stage connection =>
    rw [expire_of_still (isStill_of_bare stage)]
    exact h.of_retires (.refl s) (.bare stage connection)
  | left stage connection left =>
    rw [expire_of_still (isStill_of_left stage)]
    exact h.of_retires (.refl s) (.left stage connection left)
  | @closing c stage connection spared closing =>
    have hexpire : s.expire = s.continueClose c.client.expire := by
      rw [Session.expire, stage, connection]
    have hmore := lt_of_closing closing
    -- One of the two waits is over, so there is less to be patient about.
    have hpatience : rest - 3 = rest - 4 + 1 := by omega
    have hclosed : Closed (rest - 4) c.client.expire := (hpatience ▸ closing).expire
    have hbounds : rest - 4 ≤ rest' - 3 ∧ 3 ≤ rest' := by
      rcases hspends with hsame | ⟨hless, -⟩ <;> omega
    rw [hexpire]
    exact h.of_retires (retires_continueClose s _)
      (ending_continueClose stage connection spared (hclosed.mono hbounds.1) hbounds.2)
  | @stopping client m mode child stage connection gone told awaits exited reaped left =>
    -- The server is killed because it has not exited in time. Its exit is still due.
    have hexpire : s.expire =
        { s with connection := some { client, process := some m.overdue } } := by
      rw [Session.expire, stage, connection]
      rfl
    obtain ⟨child', hawaits, hexit, hreap⟩ := awaits.overdue
    obtain rfl := hspends.eq (by unfold Session.awaits; rw [stage])
    rw [hexpire]
    refine h.of_retires ⟨_, _, _, rfl⟩ (.stopping stage rfl gone told hawaits ?_ ?_ left)
    · rw [hexit]
      exact exited
    · rw [hreap]
      exact reaped

/-- What the server does by itself keeps a session stopped. Its exit is waited for, and then that
somebody notices it. -/
theorem Stopping.child (h : Stopping rest s) {e : ChildProcess.Event}
    (hambient : e.isAmbient = true) {rest' : Nat} (hspends : Spends s (.child e) rest rest') :
    Stopping rest' (s.child e) ∧ Retires s (s.child e) := by
  have hconnection : (s.child e).connection = s.connection.map fun c => c.passing e := rfl
  refine h.of_retires ⟨_, _, _, rfl⟩ ?_
  cases h.ending with
  | bare stage connection => exact .bare stage (by rw [hconnection, connection]; rfl)
  | left stage connection left =>
    exact .left stage (by rw [hconnection, connection]; rfl) (left.child hambient)
  | closing stage connection spared closing =>
    -- As long as the connection is being closed, nobody waits for the server.
    obtain rfl := hspends.eq (by unfold awaits; rw [stage])
    exact .closing stage (by rw [hconnection, connection]; rfl) (spared.child hambient) closing
  | @stopping client m mode child stage connection gone told awaits exited reaped left =>
    obtain ⟨child', hpasses, hexit, hreap⟩ := awaits.toKeeps.step hambient
    have hchild := child?_of_connection connection awaits.only
    have hnow : (rest' ≤ 2 → child'.exited = true) ∧ (rest' ≤ 1 → child'.reaped = true) ∧
        1 ≤ rest' := by
      rcases hspends with rfl | ⟨rfl, hawaits⟩
      · exact ⟨fun hle => hpasses.exited (exited hle), fun hle => hpasses.reaped (reaped hle), left⟩
      · rcases awaits_of_stoppingChild stage hchild hawaits with
          ⟨heq, hrunning⟩ | ⟨heq, hexited, hunnoticed⟩ | ⟨heq, -⟩
        · -- The server has not exited before, so there were three things to wait for.
          have hlate : ¬ rest' + 1 ≤ 2 := fun hle => nomatch hrunning.symm.trans (exited hle)
          exact ⟨fun _ => hexit (Event.child.inj heq), fun hle => absurd hle (by omega), by omega⟩
        · -- The exit had not been noticed, so there were two things to wait for.
          have hlate : ¬ rest' + 1 ≤ 1 := fun hle => nomatch hunnoticed.symm.trans (reaped hle)
          exact ⟨fun _ => hpasses.exited hexited, fun _ => hreap (Event.child.inj heq) hexited,
            by omega⟩
        · exact nomatch heq
    exact .stopping stage (by rw [hconnection, connection]; rfl) gone told
      (awaits.passes hpasses) hnow.1 hnow.2.1 hnow.2.2

/-- What happens on the connection by itself does not bring the session back. The server may still
say that it is ready; the phase does not let it pass. -/
theorem Stopping.ambient (h : Stopping rest s) {e : Rpc.Event Handler}
    (hambient : e.isAmbient = true) : Stopping rest (s.ambient e) ∧ Retires s (s.ambient e) := by
  cases hconnection : s.connection with
  | none =>
    have hsame : s.ambient e = s := by rw [Session.ambient, hconnection]
    rw [hsame]
    exact ⟨h, .refl s⟩
  | some c =>
    -- Being told that the server is ready counts only for a session that connects.
    have hdeaf : s.heeding (news c e) = s := by
      unfold heeding markReady
      rw [h.phase]
      split <;> rfl
    obtain ⟨relayed, heq⟩ := ambient_eq_heeding hconnection e
    rw [heq, hdeaf]
    refine h.of_retires ⟨_, _, _, rfl⟩ ?_
    cases h.ending with
    -- There is a connection here, so the stop is one that closes it.
    | bare _ connection => cases connection.symm.trans hconnection
    | closing stage connection spared closing =>
      obtain rfl := Option.some.inj (connection.symm.trans hconnection)
      exact .closing stage rfl spared (closing.quiet hambient)
    | @stopping client m mode child stage connection gone told awaits exited reaped left =>
      obtain rfl := Option.some.inj (connection.symm.trans hconnection)
      -- The client has been left, and only its child is waited for. Whether the server was told to
      -- exit has been decided before.
      have hquiet := toldExit_quiet client (directs_of_isAmbient hambient)
      exact .stopping stage rfl (gone.step e) (told.trans hquiet.symm) awaits exited reaped left
    | left stage connection left =>
      obtain rfl := Option.some.inj (connection.symm.trans hconnection)
      exact .left stage rfl (left.ambient hambient)

/-- Every step leaves a session stopped; and if the session has waited for it, there is less to wait
for. Requests change nothing, a connection that comes too late finds nobody, and the rest goes on as
said above. -/
theorem Stopping.step (h : Stopping rest s) {e : Event} {rest' : Nat}
    (hspends : Spends s e rest rest') : Stopping rest' (s.step e) ∧ Retires s (s.step e) := by
  have same : s.awaits e = false → s.step e = s →
      Stopping rest' (s.step e) ∧ Retires s (s.step e) := by
    intro hother hsame
    rw [hsame, hspends.eq hother]
    exact ⟨h, .refl s⟩
  have htakes : e.isRequest = false → s.step e = s.take e := fun hnot =>
    if_neg fun hboth => Bool.false_ne_true (hnot.symm.trans hboth.1)
  cases e with
  -- While the session stops its owner waits, so requests are not taken.
  | start => exact same (awaits_of_not_isDue rfl) (h.step_request rfl)
  | openDocument d => exact same (awaits_of_not_isDue rfl) (h.step_request rfl)
  | closeDocument uri => exact same (awaits_of_not_isDue rfl) (h.step_request rfl)
  | stop => exact same (awaits_of_not_isDue rfl) (h.step_request rfl)
  | dialed refusal =>
    -- The connecting stages are behind a session that stops, so news of a connection finds nobody.
    refine same (awaits_of_not_isDue rfl) ((htakes rfl).trans ?_)
    show s.dialed refusal = s
    unfold Session.dialed
    split
    · exact absurd ‹_› h.ending.stage.1
    · exact absurd ‹_› h.ending.stage.1
    · rfl
  | spawned verdict =>
    refine same (awaits_of_not_isDue rfl) ((htakes rfl).trans ?_)
    show s.spawned verdict = s
    unfold Session.spawned
    split
    · exact absurd ‹_› h.ending.stage.1
    · rfl
  | resume =>
    rw [htakes rfl]
    exact h.resume hspends
  | expire =>
    rw [htakes rfl]
    exact h.expire hspends
  | ambient inner =>
    rw [htakes rfl, hspends.eq (awaits_of_not_isDue rfl)]
    show Stopping rest (if inner.isAmbient then s.ambient inner else s) ∧
      Retires s (if inner.isAmbient then s.ambient inner else s)
    split
    · rename_i hambient
      exact h.ambient hambient
    · exact ⟨h, .refl s⟩
  | child inner =>
    cases hambient : inner.isAmbient with
    | true =>
      rw [htakes rfl, Session.take, if_pos hambient]
      exact h.child hambient hspends
    | false =>
      -- What a session waits for of its server happens by itself.
      refine same (awaits_of_not_isDue hambient) ((htakes rfl).trans ?_)
      rw [Session.take, if_neg (Bool.eq_false_iff.mp hambient)]

/-! ### Runs after a stop -/

/-- A session that has been stopped stays so for the rest of a run, and does not become anything
that waits for more. By induction on the events. -/
theorem Stopping.run (h : Stopping rest s) (events : List Event) :
    Stopping rest (s.run events) ∧ Retires s (s.run events) := by
  induction events generalizing s with
  | nil => exact ⟨h, .refl s⟩
  | cons e events ih =>
    obtain ⟨hnext, hretires⟩ := h.step (e := e) (.inl rfl)
    obtain ⟨hlast, hrest⟩ := ih hnext
    exact ⟨hlast, hretires.trans hrest⟩

/-- A stop is over once what it waits for has happened often enough, whatever happens in between. By
induction on the events: one that is waited for uses up a unit of `rest`, and any other leaves
it. -/
theorem Stopping.run_of_granted (h : Stopping rest s) {events : List Event}
    (hgranted : rest ≤ s.granted events) : Stopping 0 (s.run events) := by
  induction events generalizing s rest with
  | nil =>
    obtain rfl := Nat.le_zero.mp hgranted
    exact h
  | cons e events ih =>
    rw [granted] at hgranted
    cases rest with
    -- Nothing is due, and it stays so.
    | zero => exact (h.run (e :: events)).1
    | succ rest =>
      cases hawaits : s.awaits e with
      | true =>
        rw [hawaits, if_pos rfl] at hgranted
        -- What was waited for has happened: one thing less is due, and one event less is counted.
        exact ih (h.step (.inr ⟨rfl, hawaits⟩)).1 (by omega)
      | false =>
        rw [hawaits, if_neg Bool.false_ne_true, Nat.zero_add] at hgranted
        exact ih (h.step (.inl rfl)).1 hgranted

end LanguageClient.Session
