import LanguageClient.Proofs.ChildProcess.Custody
import LanguageClient.Proofs.LanguageServer.Closing
import LanguageClient.Proofs.Session.Conversation

/-!
# `LanguageClient.Proofs.Session.Custody`: who has the connection before a stop

The connection of a session, and the server that may have been spawned for it, are first in
the hands of the attempt to connect and then in those of the session. An attempt that fails
lets both go: the connection is closed and the server killed.

`Kept` says this for every stage that a session can be in before it is stopped, and every
step but a stop keeps it (`Kept.step`). So until then nothing is sent to a server that the
session relies on, and nothing of a farewell is said (`Kept.stays`).
-/

set_option autoImplicit false

namespace LanguageClient.Session

open LanguageServer Rpc
open ChildProcess (Spares Leaves Fate)

/-! ### Connections -/

/-- Nothing has been sent to the server, if it was spawned. -/
def Connection.Spared (c : Connection) : Prop :=
  ∀ m, c.process = some m → ∃ child, Spares m child

/-- The connection is gone, and so is the server, if it was spawned. Perhaps somebody has
waited for its exit. -/
structure Connection.Left (c : Connection) (awaited : Prop) : Prop where
  gone : c.client.rpc.Gone
  fate : ∀ m, c.process = some m → ∃ child, Leaves m child ∧ Fate c.client.ToldExit child ∧
    (awaited → child.exited = true)

variable {s after : Session} {c : Connection}

/-- What the client says is nothing that is sent to the process. -/
theorem Connection.Spared.withClient (h : c.Spared) (client : LanguageServer.Client Handler) :
    ({ c with client } : Connection).Spared := h

/-- A connection that is let go is closed, and its server killed. It was not told to exit by then
(`hstays`), so killing is the fate that is due to it. -/
theorem Connection.Spared.drop (h : c.Spared) (hstays : c.client.Stays) {awaited : Prop}
    (hnobody : ¬ awaited) : c.drop.Left awaited where
  gone := ⟨rfl, rfl⟩
  fate m hm := by
    obtain ⟨before, hprocess, rfl⟩ := Option.map_eq_some_iff.mp hm
    obtain ⟨child, hspares⟩ := h before hprocess
    obtain ⟨child', hleaves, hfate⟩ := hspares.drop hstays.untold
    exact ⟨child', hleaves, hfate, fun hwaits => absurd hwaits hnobody⟩

/-- A connection that is gone stays so, whatever happens to it by itself. Nobody is left who would
say something over it. -/
theorem Connection.Left.ambient {awaited : Prop} (h : c.Left awaited) {e : Rpc.Event Handler}
    (hambient : e.isAmbient = true) :
    ({ c with client := { c.client with rpc := c.client.rpc.step e } } : Connection).Left
      awaited where
  gone := h.gone.step e
  fate m hm := by
    have htold := propext (toldExit_quiet c.client (directs_of_isAmbient hambient))
    rw [htold]
    exact h.fate m hm

/-- A connection after a step of its server. -/
def Connection.passing (c : Connection) (e : ChildProcess.Event) : Connection :=
  { c with process := c.process.map fun m => m.step e }

/-- A server to which nothing was sent may exit by itself; it is still one to which nothing was
sent. -/
theorem Connection.Spared.child (h : c.Spared) {e : ChildProcess.Event}
    (hambient : e.isAmbient = true) : (c.passing e).Spared := by
  intro m hm
  obtain ⟨before, hprocess, rfl⟩ := Option.map_eq_some_iff.mp hm
  obtain ⟨child, hspares⟩ := h before hprocess
  obtain ⟨child', hpasses, -, -⟩ := hspares.toKeeps.step hambient
  exact ⟨child', hspares.passes hpasses⟩

/-- A server that was let go meets its fate once. What its process does afterwards does not change
it. -/
theorem Connection.Left.child {awaited : Prop} (h : c.Left awaited) {e : ChildProcess.Event}
    (hambient : e.isAmbient = true) : (c.passing e).Left awaited where
  gone := h.gone
  fate m hm := by
    obtain ⟨before, hprocess, rfl⟩ := Option.map_eq_some_iff.mp hm
    obtain ⟨child, hleaves, hfate, hexited⟩ := h.fate before hprocess
    obtain ⟨child', hpasses, -, -⟩ := hleaves.toKeeps.step hambient
    exact ⟨child', hleaves.passes hpasses, hfate.passes hpasses,
      fun hwaits => hpasses.exited (hexited hwaits)⟩

/-! ### Stages before a stop -/

/-- Who has the connection of a session that has not been stopped. -/
inductive Kept (s : Session) : Prop where
  | bare (stage : s.stage = .unopened ∨ s.stage = .opening ∨ s.stage = .abandoned)
      (connection : s.connection = none)
  | live {c : Connection} (stage : s.stage = .handshaking ∨ s.stage = .held)
      (connection : s.connection = some c) (spared : c.Spared)
  | dropped {c : Connection} (stage : s.stage = .abandoned) (connection : s.connection = some c)
      (left : c.Left False) (stays : c.client.Stays)

/-- Only the stage and the connection count. -/
theorem Kept.congr (h : Kept s) (hstage : after.stage = s.stage)
    (hconnection : after.connection = s.connection) : Kept after := by
  cases h with
  | bare stage connection => exact .bare (hstage ▸ stage) (hconnection.trans connection)
  | live stage connection spared =>
    exact .live (hstage ▸ stage) (hconnection.trans connection) spared
  | dropped stage connection left stays =>
    exact .dropped (hstage.trans stage) (hconnection.trans connection) left stays

/-- Until the connection has been opened there is none. So the one that a dial or a spawn brings
does not take the place of another. -/
theorem Kept.connection_eq_none (h : Kept s) (hstage : s.stage = .unopened ∨ s.stage = .opening) :
    s.connection = none := by
  cases h with
  | bare _ connection => exact connection
  | live stage =>
    rcases stage with stage | stage
    · exact absurd (stage ▸ hstage) (by decide)
    · exact absurd (stage ▸ hstage) (by decide)
  | dropped stage => exact absurd (stage ▸ hstage) (by decide)

/-- A connection in use has a server to which nothing was sent. This is what the stop of the session
begins with. -/
theorem Kept.spared (h : Kept s) (hstage : s.stage = .handshaking ∨ s.stage = .held)
    (hconnection : s.connection = some c) : c.Spared := by
  cases h with
  | bare _ connection => exact nomatch connection.symm.trans hconnection
  | live _ connection spared =>
    obtain rfl := Option.some.inj (connection.symm.trans hconnection)
    exact spared
  | dropped stage => exact absurd (stage ▸ hstage) (by decide)

/-- A session that has not been stopped does not close its connection, so the stages of closing can
be left out below. -/
theorem Kept.isEnding (h : Kept s) : s.stage.isEnding = false := by
  rcases h with ⟨hstage | hstage | hstage, -⟩ | ⟨hstage | hstage, -, -⟩ | ⟨hstage, -, -, -⟩ <;>
    rw [hstage] <;> rfl

/-- A connection in use has said nothing of a farewell: the client asks to be initialized, or
talks. -/
theorem Standing.stays (h : Standing s) (hstage : s.stage = .handshaking ∨ s.stage = .held)
    (hconnection : s.connection = some c) : c.client.Stays := by
  have hclient : s.client? = some c.client := client?_of_connection hconnection
  rcases hstage with hstage | hstage
  · exact (h.asking_of_stage hstage hclient).2.stays
  · exact (h.talking_of_stage hstage hclient).2.stays

/-- Before a stop nothing of a farewell is said. A connection that was let go said nothing of it
before, and says nothing at all afterwards. -/
theorem Kept.stays (h : Kept s) (hstanding : Standing s) :
    ∀ u ∈ ending, u ∉ utterances s.messages := by
  cases h with
  | bare _ connection =>
    rw [messages_of_none connection]
    exact fun _ _ => List.not_mem_nil
  | live stage connection =>
    rw [messages_of_some connection]
    exact hstanding.stays stage connection
  | dropped _ connection _ stays =>
    rw [messages_of_some connection]
    exact stays

/-! ### Steps -/

/-- The handshake goes on, ends well, or fails; then the connection is let go and the server
killed. -/
theorem kept_continueHandshake (hstage : s.stage = .handshaking)
    (hconnection : s.connection = some c) (hspared : c.Spared)
    {progress : Option Answer × LanguageServer.Client Handler}
    (h : Greeting callees progress) (hstays : progress.2.Stays) :
    Kept (s.continueHandshake progress) := by
  have hwith : (s.withClient progress.2).connection = some { c with client := progress.2 } := by
    rw [withClient, hconnection]
    rfl
  unfold continueHandshake
  cases h with
  | waits => exact .live (.inl hstage) hwith hspared
  | fails e =>
    -- Nothing of a farewell was said, so the server has not been told to exit and is killed.
    refine .dropped (c := Connection.drop { c with client := _ }) rfl ?_ ?_ hstays
    · exact congrArg (Option.map Connection.drop) hwith
    · exact Connection.Spared.drop (hspared.withClient _) hstays not_false
  | @ends client =>
    refine .live (c := { c with client := s.documents.foldl announce client }) (.inr rfl) ?_ hspared
    show Option.map _ (s.withClient client).connection = _
    rw [hwith]
    rfl

/-- A new connection is in the hands of the attempt to connect, with a server to which nothing was
sent. Its handshake may fail at once, and then both are let go. -/
theorem kept_connected (s : Session) {process : Option ChildProcess.Manager}
    (hspared : ∀ m, process = some m → ∃ child, Spares m child) :
    Kept (s.connected {} process) := by
  have hgreeting := (fresh_newClient s.config s.processId).handshake rfl s.config.rootUri
  have hnew : (newClient s.config s.processId {}).Stays := fun _ _ => List.not_mem_nil
  have hstays := stays_handshake rfl hnew s.config.rootUri
  exact kept_continueHandshake (c := { client := newClient s.config s.processId {}, process })
    rfl rfl hspared hgreeting hstays

/-- An attempt that fails before there is a connection has nothing to let go. -/
theorem kept_fail (hconnection : s.connection = none) (e : SessionError) : Kept (s.fail e) := by
  refine .bare (.inr (.inr rfl)) ?_
  show s.connection.map Connection.drop = none
  rw [hconnection]
  rfl

/-- A dial gives a connection without a process, or none. Without a process there is nothing to be
spared. -/
theorem Kept.dialed (h : Kept s) (refusal : Option SystemError) : Kept (s.dialed refusal) := by
  unfold Session.dialed
  split
  · rename_i hstage _
    exact kept_fail (h.connection_eq_none (.inr hstage)) _
  · exact kept_connected s nofun
  · exact h

/-- A server that could be spawned is spared at first; otherwise there is no connection. Its child
has been started by this session, so nobody else has sent anything to it. -/
theorem Kept.spawned (h : Kept s) (verdict : Except SystemError Nat) :
    Kept (s.spawned verdict) := by
  unfold Session.spawned
  split
  · rename_i hstage _
    dsimp only
    split
    · -- The child that was spawned is the only one of its manager, and nothing has been sent to it.
      rename_i hclaim
      obtain rfl := stream_of_claim hclaim
      obtain ⟨child, hspares⟩ := ChildProcess.spares_of_claim rfl rfl hclaim
      refine kept_connected s fun m hm => ?_
      obtain rfl := Option.some.inj hm
      exact ⟨child, hspares⟩
    · exact kept_fail (h.connection_eq_none (.inr hstage)) _
  · exact h

/-- The handshake goes on when something has come for it. The other stages that wait are those of a
stop. -/
theorem Kept.resume (h : Kept s) (hstanding : Standing s) : Kept s.resume := by
  have hending := h.isEnding
  unfold Session.resume
  split
  · rename_i c hstage hconnection
    have hclient : s.client? = some c.client := client?_of_connection hconnection
    obtain ⟨-, hasking⟩ := hstanding.asking_of_stage hstage hclient
    exact kept_continueHandshake hstage hconnection (h.spared (.inl hstage) hconnection)
      hasking.resume ((handshaking_resume hasking.activity).stays hasking.stays)
  · rename_i hstage _
    -- A session that has not been stopped is at neither of these stages.
    exact nomatch (hstage ▸ hending : Stage.closing.isEnding = false)
  · rename_i hstage
    exact nomatch (hstage ▸ hending : Stage.stoppingChild.isEnding = false)
  · exact h

/-- The handshake goes on when its time is over, and fails by that. A session that is not being
stopped waits for nothing else. -/
theorem Kept.expire (h : Kept s) (hstanding : Standing s) : Kept s.expire := by
  -- No stage of a stop, so the two branches for them are not taken.
  have hending := h.isEnding
  unfold Session.expire
  split
  · rename_i c hstage hconnection
    have hclient : s.client? = some c.client := client?_of_connection hconnection
    obtain ⟨-, hasking⟩ := hstanding.asking_of_stage hstage hclient
    exact kept_continueHandshake hstage hconnection (h.spared (.inl hstage) hconnection)
      hasking.expire ((handshaking_expire hasking.activity).stays hasking.stays)
  · rename_i hstage _
    exact nomatch (hstage ▸ hending : Stage.closing.isEnding = false)
  · rename_i hstage _
    exact nomatch (hstage ▸ hending : Stage.stoppingChild.isEnding = false)
  · exact h

/-- What happens on the connection by itself takes it out of nobody's hands. The custody depends on
the stage, which stays, and on the child, which is not concerned. -/
theorem Kept.ambient (h : Kept s) {e : Rpc.Event Handler} (hambient : e.isAmbient = true) :
    Kept (s.ambient e) := by
  cases hconnection : s.connection with
  | none => rwa [Session.ambient, hconnection]
  | some c =>
    obtain ⟨phase, indicator, relayed, heq, -⟩ := ambient_eq hconnection e
    rw [heq]
    cases h with
    | bare _ connection => cases connection.symm.trans hconnection
    | live stage connection spared =>
      obtain rfl := Option.some.inj (connection.symm.trans hconnection)
      exact .live stage rfl spared
    | dropped stage connection left stays =>
      -- The connection was let go. It stays gone, and nothing is said over it.
      obtain rfl := Option.some.inj (connection.symm.trans hconnection)
      refine .dropped stage rfl (left.ambient hambient) ?_
      show ∀ u ∈ ending, u ∉ utterances (_ : Rpc.Client Handler).accepted
      rw [utterances_quiet _ (directs_of_isAmbient hambient)]
      exact stays

/-- What the process does by itself concerns nobody but the process. Nothing is sent to it by
that. -/
theorem Kept.child (h : Kept s) {e : ChildProcess.Event} (hambient : e.isAmbient = true) :
    Kept (s.child e) := by
  have hconnection : (s.child e).connection = s.connection.map fun c => c.passing e := rfl
  cases h with
  | bare stage connection => exact .bare stage (by rw [hconnection, connection]; rfl)
  | live stage connection spared =>
    exact .live stage (by rw [hconnection, connection]; rfl) (spared.child hambient)
  | dropped stage connection left stays =>
    exact .dropped stage (by rw [hconnection, connection]; rfl) (left.child hambient) stays

/-- Telling the server of documents leaves the connection with the session. -/
theorem Kept.tell (h : Kept s) {held client : LanguageServer.Client Handler}
    (hheld : s.heldClient? = some held) (documents : List Document) :
    Kept { s.withClient client with documents } := by
  obtain ⟨hstage, c, hconnection, rfl⟩ := heldClient?_eq_some.mp hheld
  have hspared := h.spared (.inr hstage) hconnection
  refine .live (c := { c with client }) (.inr hstage) ?_ hspared
  show (s.withClient client).connection = _
  rw [withClient, hconnection]
  rfl

/-- Every step but a stop leaves the connection in good hands: there is none, or it is in use and
its child is spared, or it was let go by a handshake that failed. -/
theorem Kept.step (h : Kept s) (hstanding : Standing s) (htimely : Timely s) {e : Event}
    (hstop : e ≠ .stop) : Kept (s.step e) := by
  unfold Session.step
  split
  · exact h
  cases e with
  | start =>
    -- A start is possible once, before there is a connection.
    show Kept (s.start.toOption.getD s)
    unfold Session.start
    split
    · rename_i hidle
      exact .bare (.inr (.inl rfl)) (h.connection_eq_none (.inl (htimely.fresh hidle)))
    · exact h
    · exact h
  | openDocument d =>
    -- The document may be told of or not. In each case the connection is kept.
    have hopening := opening s d
    generalize s.take (.openDocument d) = after at hopening ⊢
    cases hopening with
    | same => exact h
    | deferred => exact h.congr rfl rfl
    | told _ _ held => exact h.tell held _
  | closeDocument uri =>
    have hclosing := closing s uri
    generalize s.take (.closeDocument uri) = after at hclosing ⊢
    cases hclosing with
    | same => exact h
    | deferred => exact h.congr rfl rfl
    | told _ held => exact h.tell held _
    | lost => exact h.congr rfl rfl
  -- The one step that begins to retire the connection is `stop`, which has its own lemma.
  | stop => exact absurd rfl hstop
  | dialed refusal => exact h.dialed refusal
  | spawned verdict => exact h.spawned verdict
  | resume => exact h.resume hstanding
  | expire => exact h.expire hstanding
  | ambient inner =>
    show Kept (if inner.isAmbient then s.ambient inner else s)
    split
    · rename_i hambient
      exact h.ambient hambient
    · exact h
  | child inner =>
    show Kept (if inner.isAmbient then s.child inner else s)
    split
    · rename_i hambient
      exact h.child hambient
    · exact h

end LanguageClient.Session
