import LanguageClient.Proofs.LanguageServer.Conduct
import LanguageClient.Proofs.Session.Phase
import LanguageClient.Proofs.Session.Telling

/-!
# `LanguageClient.Proofs.Session.Conversation`: what a session says to its server

A session opens one connection at most, and what it says over it is one conversation: a
handshake, documents, a farewell (`LanguageServer.InOrder`). That holds of every run, with
any server and a stop at any time.

How far the conversation has come can be told from the stage of the session (`Standing`).
Every step keeps that (`Standing.step`): the client goes on as `LanguageServer.Greeting` and
`LanguageServer.Parting` say, and the stage follows. `conversed` is what it means for the
messages of a run.
-/

set_option autoImplicit false

namespace LanguageClient.Session

open LanguageServer Rpc

/-- Whom the client of a session calls. -/
def callees : Setup Handler where
  handlers := relayedMethods.reverse.map (·, .relay) ++ [(readyMethod, .readiness)]
  replier := some answer

/-! ### Stages -/

/-- The client of the connection that was opened. -/
def client? (s : Session) : Option (LanguageServer.Client Handler) :=
  s.connection.map Connection.client

/-- Whether nothing more is said at a stage, if anything was said before. -/
def Stage.isLate : Stage → Bool
  | .abandoned | .closing | .stoppingChild | .released => true
  | .unopened | .opening | .handshaking | .held => false

/-- How far the conversation is at each stage. -/
inductive Standing (s : Session) : Prop where
  | silent (stage : s.stage = .unopened ∨ s.stage = .opening ∨ s.stage = .abandoned)
      (client : s.client? = none) (opened : s.opened = 0)
  | asking {c : LanguageServer.Client Handler} (stage : s.stage = .handshaking)
      (client : s.client? = some c) (opened : s.opened = 1) (asking : Asking callees c)
  | talking {c : LanguageServer.Client Handler} (stage : s.stage = .held)
      (client : s.client? = some c) (opened : s.opened = 1) (talking : Talking callees c)
  | leaving {c : LanguageServer.Client Handler} (stage : s.stage = .closing)
      (client : s.client? = some c) (opened : s.opened = 1) (leaving : Leaving callees c)
  | finished {c : LanguageServer.Client Handler} (stage : s.stage.isLate = true)
      (client : s.client? = some c) (opened : s.opened = 1) (finished : Over callees c)

variable {s after : Session} {c : LanguageServer.Client Handler}

/-- The client of a session is that of its connection. -/
theorem client?_of_connection {connection : Connection} (h : s.connection = some connection) :
    s.client? = some connection.client := by
  rw [client?, h]
  rfl

/-- Only the stage, the client and the number of connections count. What a step does to documents,
the status item or the process leaves the conversation where it is. -/
theorem Standing.congr (h : Standing s) (hstage : after.stage = s.stage)
    (hclient : after.client? = s.client?) (hopened : after.opened = s.opened) :
    Standing after := by
  cases h with
  | silent stage client opened =>
    exact .silent (hstage ▸ stage) (hclient.trans client) (hopened.trans opened)
  | asking stage client opened asking =>
    exact .asking (hstage.trans stage) (hclient.trans client) (hopened.trans opened) asking
  | talking stage client opened talking =>
    exact .talking (hstage.trans stage) (hclient.trans client) (hopened.trans opened) talking
  | leaving stage client opened leaving =>
    exact .leaving (hstage.trans stage) (hclient.trans client) (hopened.trans opened) leaving
  | finished stage client opened finished =>
    exact .finished (hstage ▸ stage) (hclient.trans client) (hopened.trans opened) finished

/-- The stage tells what the client is doing: during the handshake it asks to be initialized. The
other cases of `Standing` are for other stages. -/
theorem Standing.asking_of_stage (h : Standing s) (hstage : s.stage = .handshaking)
    (hclient : s.client? = some c) : s.opened = 1 ∧ Asking callees c := by
  cases h with
  | silent _ client => exact nomatch client.symm.trans hclient
  | asking _ client opened asking =>
    obtain rfl := Option.some.inj (client.symm.trans hclient)
    exact ⟨opened, asking⟩
  | talking stage => exact nomatch stage.symm.trans hstage
  | leaving stage => exact nomatch stage.symm.trans hstage
  | finished stage =>
    rw [hstage] at stage
    exact nomatch stage

/-- A connection that is held is one on which the handshake has ended well. So whatever is said over
it comes after the greeting. -/
theorem Standing.talking_of_stage (h : Standing s) (hstage : s.stage = .held)
    (hclient : s.client? = some c) : s.opened = 1 ∧ Talking callees c := by
  cases h with
  | silent _ client => exact nomatch client.symm.trans hclient
  | asking stage => exact nomatch stage.symm.trans hstage
  | talking _ client opened talking =>
    obtain rfl := Option.some.inj (client.symm.trans hclient)
    exact ⟨opened, talking⟩
  | leaving stage => exact nomatch stage.symm.trans hstage
  | finished stage =>
    rw [hstage] at stage
    exact nomatch stage

/-- While the connection is being closed, the client says its farewell or has said all of it.
Neither says anything but the rest of the farewell. -/
theorem Standing.leaving_of_stage (h : Standing s) (hstage : s.stage = .closing)
    (hclient : s.client? = some c) : s.opened = 1 ∧ (Leaving callees c ∨ Over callees c) := by
  cases h with
  | silent _ client => exact nomatch client.symm.trans hclient
  | asking stage => exact nomatch stage.symm.trans hstage
  | talking stage => exact nomatch stage.symm.trans hstage
  | leaving _ client opened leaving =>
    obtain rfl := Option.some.inj (client.symm.trans hclient)
    exact ⟨opened, .inl leaving⟩
  | finished _ client opened finished =>
    obtain rfl := Option.some.inj (client.symm.trans hclient)
    exact ⟨opened, .inr finished⟩

/-- While the connection is being opened there is none yet, and nothing has been said. So the one
that is opened is the only one. -/
theorem Standing.silent_of_stage (h : Standing s) (hstage : s.stage = .opening) :
    s.client? = none ∧ s.opened = 0 := by
  cases h with
  | silent _ client opened => exact ⟨client, opened⟩
  | asking stage => exact nomatch stage.symm.trans hstage
  | talking stage => exact nomatch stage.symm.trans hstage
  | leaving stage => exact nomatch stage.symm.trans hstage
  | finished stage =>
    rw [hstage] at stage
    exact nomatch stage

/-- The client of a connection that is let go waits for nothing any more: its transport is dropped,
and what it was doing with it. -/
theorem client?_drop (hclient : s.client? = some c)
    (hafter : after.connection = s.connection.map Connection.drop) :
    after.client? = some { c with rpc := c.rpc.drop, activity := .idle } := by
  obtain ⟨connection, hconnection, rfl⟩ := Option.map_eq_some_iff.mp hclient
  rw [client?, hafter, hconnection]
  rfl

/-- Replacing the client of a session is replacing that of its connection. -/
theorem client?_withClient (hclient : s.client? = some c)
    (client : LanguageServer.Client Handler) : (s.withClient client).client? = some client := by
  obtain ⟨connection, hconnection, -⟩ := Option.map_eq_some_iff.mp hclient
  rw [client?, withClient, hconnection]
  rfl

/-! ### The handshake -/

/-- A new client has said nothing; it is the outcome of setting its handlers. All of them are set
before the first message is sent, so none can be missed. -/
theorem fresh_newClient (config : Config) (processId : Nat) :
    Fresh callees (newClient config processId {}) where
  initialized := rfl
  running := rfl
  recorded :=
    ⟨⟨.onNotification readyMethod .readiness ::
      (relayedMethods.map fun m => Rpc.Event.onNotification m .relay) ++ [.onRequest answer], rfl⟩,
      rfl, rfl, rfl⟩

/-- Telling the server of the documents that were opened so far is part of the talk. By induction on
the documents; one that cannot be told is passed over. -/
theorem talking_announce (h : Talking callees c) (documents : List Document) :
    Talking callees (documents.foldl announce c) := by
  induction documents generalizing c with
  | nil => exact h
  | cons d documents ih =>
    rw [List.foldl_cons]
    refine ih ?_
    unfold announce
    cases hopen : c.openDocument d with
    | error e => exact h
    | ok told => exact h.openDocument hopen

/-- The handshake goes on, fails or ends, and the stage goes with it. When it ends, the documents
are announced at once. -/
theorem standing_continueHandshake (hstage : s.stage = .handshaking)
    (hclient : s.client? = some c) (hopened : s.opened = 1)
    {progress : Option Answer × LanguageServer.Client Handler} (h : Greeting callees progress) :
    Standing (s.continueHandshake progress) := by
  have hsome := client?_withClient hclient progress.2
  unfold continueHandshake
  cases h with
  | waits asking => exact .asking hstage hsome hopened asking
  | fails e finished =>
    -- Nothing more is said, and the connection is let go.
    exact .finished rfl (client?_drop hsome rfl) hopened finished.conducted.drop
  | ends result talking =>
    refine .talking rfl ?_ hopened (talking_announce talking s.documents)
    obtain ⟨connection, hconnection, rfl⟩ := Option.map_eq_some_iff.mp hsome
    show (Option.map _ _).map Connection.client = _
    rw [hconnection]
    rfl

/-- A new connection begins with the handshake. It is the first one, since none has been opened. -/
theorem standing_connected (hopened : s.opened = 0) (process : Option ChildProcess.Manager) :
    Standing (s.connected {} process) := by
  have hgreeting := (fresh_newClient s.config s.processId).handshake rfl s.config.rootUri
  exact standing_continueHandshake rfl rfl (congrArg (· + 1) hopened) hgreeting

/-- An attempt that does not reach the server leaves a session that has said nothing. It is
abandoned, and no other attempt follows. -/
theorem standing_fail (hclient : s.client? = none) (hopened : s.opened = 0) (e : SessionError) :
    Standing (s.fail e) := by
  refine .silent (.inr (.inr rfl)) ?_ hopened
  rw [client?, Option.map_eq_none_iff] at hclient
  show (s.connection.map Connection.drop).map Connection.client = none
  rw [hclient]
  rfl

/-- The stream of a server that was spawned is a new one, as after a dial. So both ways to connect
begin alike. -/
theorem stream_of_claim {m after : ChildProcess.Manager} {verdict : Except SystemError Nat}
    {stream : Stream}
    (h : (m.start verdict).bind ChildProcess.Manager.claim = .ok (stream, after)) :
    stream = {} := by
  unfold ChildProcess.Manager.start at h
  split at h
  · exact nomatch h
  · cases verdict with
    | error cause => exact nomatch h
    | ok pid => exact (congrArg Prod.fst (Except.ok.inj h)).symm

/-! ### Stopping -/

/-- Stopping the spawned server leaves the client alone. All stages that can follow are late
ones. -/
theorem afterClose_late (s : Session) (answer : Answer) :
    (s.afterClose answer).stage.isLate = true ∧ (s.afterClose answer).client? = s.client? ∧
      (s.afterClose answer).opened = s.opened := by
  unfold afterClose
  dsimp only
  -- With a child the session waits for it, and without one it lets go at once.
  split
  · rename_i client m hconnection
    split
    · unfold continueStop
      dsimp only
      refine ⟨?_, ?_, rfl⟩
      · split <;> rfl
      · rw [client?, client?, hconnection]
        rfl
    · exact ⟨rfl, rfl, rfl⟩
  · exact ⟨rfl, rfl, rfl⟩

/-- The farewell goes on or is over, and the stage goes with it. It is over with the answer of the
client, after which the session waits for the child or lets go of everything. -/
theorem standing_continueClose (hstage : s.stage = .closing) (hclient : s.client? = some c)
    (hopened : s.opened = 1) {progress : Option Answer × LanguageServer.Client Handler}
    (h : Parting callees progress) : Standing (s.continueClose progress) := by
  have hsome := client?_withClient hclient progress.2
  unfold continueClose
  dsimp only
  cases hanswer : progress.1 with
  | none =>
    -- There is no answer yet: the client waits, or its farewell was over before and closing only
    -- takes its time.
    rcases h with ⟨-, hleaving⟩ | hover
    · exact .leaving hstage hsome hopened hleaving
    · refine .finished ?_ hsome hopened hover
      show s.stage.isLate = true
      rw [hstage]
      rfl
  | some answer =>
    -- An answer comes only when nothing more is said.
    have hover : Over callees progress.2 :=
      h.resolve_left fun hwaits => nomatch hwaits.1.symm.trans hanswer
    obtain ⟨hlate, hsame, hcount⟩ := afterClose_late (s.withClient progress.2) answer
    exact .finished hlate (hsame.trans hsome) (hcount.trans hopened) hover

/-- Waiting for the server to exit says nothing more to it. The client has said its farewell by
then, and is kept as it is. -/
theorem Standing.continueStop (h : Standing s) (hstage : s.stage = .stoppingChild) :
    Standing s.continueStop := by
  -- At this stage the server is not spoken to any more, nor at the one after it.
  have hlate : s.continueStop.stage.isLate = true := by
    unfold Session.continueStop
    split
    · dsimp only
      split
      · rfl
      · rw [hstage]
        rfl
    · rfl
  have hclient : s.continueStop.client? = s.client? := by
    unfold Session.continueStop
    split
    · rename_i hconnection
      rw [client?, client?, hconnection]
      rfl
    · rfl
  have hopened : s.continueStop.opened = s.opened := by
    unfold Session.continueStop
    split <;> rfl
  -- The child is waited for only when nothing more is said.
  cases h with
  | silent stage =>
    rw [hstage] at stage
    exact absurd stage (by decide)
  | asking stage => exact nomatch stage.symm.trans hstage
  | talking stage => exact nomatch stage.symm.trans hstage
  | leaving stage => exact nomatch stage.symm.trans hstage
  | finished _ client opened finished =>
    exact .finished hlate (hclient.trans client) (hopened.trans opened) finished

/-- A stop cuts the attempt to connect short, or begins the farewell. If neither is possible,
nothing is said. -/
theorem Standing.stop (h : Standing s) : Standing s.stop := by
  unfold Session.stop
  split
  · exact h
  unfold release
  dsimp only
  split
  · -- The attempt to connect is given up before there is a connection.
    rename_i hstage
    obtain ⟨hclient, hopened⟩ := h.silent_of_stage hstage
    exact .silent (.inr (.inr rfl)) hclient hopened
  · rename_i hstage
    cases hclient : s.client? with
    | none =>
      -- The handshake goes on over a connection, so there is one.
      cases h with
      | silent stage =>
        rw [hstage] at stage
        exact absurd stage (by decide)
      | asking _ client => exact nomatch client.symm.trans hclient
      | talking _ client => exact nomatch client.symm.trans hclient
      | leaving _ client => exact nomatch client.symm.trans hclient
      | finished _ client => exact nomatch client.symm.trans hclient
    | some c =>
      -- The handshake is cut short, and nothing more is said.
      obtain ⟨hopened, hasking⟩ := h.asking_of_stage hstage hclient
      exact .finished rfl (client?_drop hclient rfl) hopened hasking.conducted.drop
  · -- The session holds its connection, so the handshake is done and the farewell may begin.
    rename_i connection hstage hconnection
    have hclient : s.client? = some connection.client := client?_of_connection hconnection
    obtain ⟨hopened, htalking⟩ := h.talking_of_stage hstage hclient
    refine standing_continueClose (c := connection.client) ?_ ?_ ?_ htalking.close
    · rfl
    · exact hclient
    · exact hopened
  · exact h.congr rfl rfl rfl

/-! ### Steps -/

/-- When something has come for the client it goes on, with the handshake or with the farewell. One
case for each stage that waits for something. -/
theorem Standing.resume (h : Standing s) : Standing s.resume := by
  unfold Session.resume
  split
  · rename_i connection hstage hconnection
    have hclient : s.client? = some connection.client := client?_of_connection hconnection
    obtain ⟨hopened, hasking⟩ := h.asking_of_stage hstage hclient
    exact standing_continueHandshake hstage hclient hopened hasking.resume
  · rename_i connection hstage hconnection
    have hclient : s.client? = some connection.client := client?_of_connection hconnection
    obtain ⟨hopened, hleaving | hover⟩ := h.leaving_of_stage hstage hclient
    · exact standing_continueClose hstage hclient hopened hleaving.resume
    · exact standing_continueClose hstage hclient hopened (.inr hover.resume)
  · -- The session waits for its server to exit, and the client has nothing to do.
    rename_i hstage
    exact h.continueStop hstage
  · exact h

/-- When the time is over, the handshake or the farewell goes on without an answer. One case for
each stage that waits for something. -/
theorem Standing.expire (h : Standing s) : Standing s.expire := by
  unfold Session.expire
  split
  · rename_i connection hstage hconnection
    have hclient : s.client? = some connection.client := client?_of_connection hconnection
    obtain ⟨hopened, hasking⟩ := h.asking_of_stage hstage hclient
    exact standing_continueHandshake hstage hclient hopened hasking.expire
  · rename_i connection hstage hconnection
    have hclient : s.client? = some connection.client := client?_of_connection hconnection
    obtain ⟨hopened, hleaving | hover⟩ := h.leaving_of_stage hstage hclient
    · exact standing_continueClose hstage hclient hopened hleaving.expire
    · exact standing_continueClose hstage hclient hopened (.inr hover.expire)
  · -- The server did not exit in time and is killed. To the client this does not matter.
    rename_i connection _ hconnection
    refine h.congr rfl ?_ rfl
    rw [client?, client?, hconnection]
    rfl
  · exact h

/-- What happens on the connection by itself leaves the conversation where it is: it says nothing of
its own accord and sets no handlers. -/
theorem Standing.ambient (h : Standing s) {e : Rpc.Event Handler} (hambient : e.isAmbient = true) :
    Standing (s.ambient e) := by
  -- No such event is directed by the owner, so nothing is said by it. Every stage of the
  -- conversation is kept by what says nothing.
  have hquiet := Rpc.directs_of_isAmbient hambient
  cases hconnection : s.connection with
  | none => rwa [Session.ambient, hconnection]
  | some connection =>
    obtain ⟨phase, indicator, relayed, heq, -⟩ := ambient_eq hconnection e
    have hclient : s.client? = some connection.client := client?_of_connection hconnection
    rw [heq]
    cases h with
    -- There is a connection, and so the session is not silent.
    | silent _ client => cases client.symm.trans hclient
    | asking stage client opened asking =>
      obtain rfl := Option.some.inj (client.symm.trans hclient)
      exact .asking stage rfl opened (asking.quiet hquiet)
    | talking stage client opened talking =>
      obtain rfl := Option.some.inj (client.symm.trans hclient)
      exact .talking stage rfl opened (talking.quiet hquiet)
    | leaving stage client opened leaving =>
      obtain rfl := Option.some.inj (client.symm.trans hclient)
      exact .leaving stage rfl opened (leaving.quiet hquiet)
    | finished stage client opened finished =>
      obtain rfl := Option.some.inj (client.symm.trans hclient)
      exact .finished stage rfl opened (finished.quiet hquiet)

/-- What the session tells of documents is part of the talk, which goes on while the connection is
held. -/
theorem Standing.tell (h : Standing s) (hheld : s.heldClient? = some c)
    (client : LanguageServer.Client Handler) (htalks : Talking callees c → Talking callees client)
    (documents : List Document) : Standing { s.withClient client with documents } := by
  obtain ⟨hstage, connection, hconnection, rfl⟩ := heldClient?_eq_some.mp hheld
  have hclient : s.client? = some connection.client := client?_of_connection hconnection
  obtain ⟨hopened, htalking⟩ := h.talking_of_stage hstage hclient
  exact .talking hstage (client?_withClient hclient client) hopened (htalks htalking)

/-- Opening a document tells the server of it if a connection is held. Otherwise it is only
remembered, and announced after the handshake. -/
theorem Standing.openDocument (h : Standing s) (d : Document) :
    Standing (s.take (.openDocument d)) := by
  have hopening := opening s d
  generalize s.take (.openDocument d) = after at hopening ⊢
  cases hopening with
  | same => exact h
  | deferred => exact h.congr rfl rfl rfl
  | told _ _ held sent => exact h.tell held _ (fun htalking => htalking.openDocument sent) _

/-- Closing a document tells the server of it if a connection is held. If it cannot be sent, nothing
is said. -/
theorem Standing.closeDocument (h : Standing s) (uri : String) :
    Standing (s.take (.closeDocument uri)) := by
  have hclosing := closing s uri
  generalize s.take (.closeDocument uri) = after at hclosing ⊢
  cases hclosing with
  | same => exact h
  | deferred => exact h.congr rfl rfl rfl
  | told _ held sent => exact h.tell held _ (fun htalking => htalking.closeDocument sent) _
  | lost => exact h.congr rfl rfl rfl

/-- The outcome of a dial matters only while the session waits for it. A refusal leaves the session
without a connection, and nothing is ever said. -/
theorem Standing.dialed (h : Standing s) (refusal : Option SystemError) :
    Standing (s.dialed refusal) := by
  unfold Session.dialed
  split
  · rename_i hstage _
    obtain ⟨hclient, hopened⟩ := h.silent_of_stage hstage
    exact standing_fail hclient hopened _
  · rename_i hstage _
    exact standing_connected (h.silent_of_stage hstage).2 none
  · exact h

/-- The outcome of spawning a server matters only while the session waits for it. The stream is
taken from the process only if it could be spawned. -/
theorem Standing.spawned (h : Standing s) (verdict : Except SystemError Nat) :
    Standing (s.spawned verdict) := by
  unfold Session.spawned
  split
  · rename_i hstage _
    obtain ⟨hclient, hopened⟩ := h.silent_of_stage hstage
    dsimp only
    split
    · -- The server runs and its stream could be had: the connection opens with this child.
      rename_i hclaim
      obtain rfl := stream_of_claim hclaim
      exact standing_connected hopened _
    · exact standing_fail hclient hopened _
  · exact h

/-- What the server's process does by itself leaves the client alone. -/
theorem Standing.child (h : Standing s) (e : ChildProcess.Event) : Standing (s.child e) := by
  refine h.congr rfl ?_ rfl
  show (s.connection.map _).map Connection.client = s.connection.map Connection.client
  rw [Option.map_map]
  rfl

/-- A session that is started has not been started before, so nothing was said. All other starts are
refused. -/
theorem Standing.start (h : Standing s) (htimely : Timely s) : Standing (s.take .start) := by
  show Standing (s.start.toOption.getD s)
  unfold Session.start
  split
  · rename_i hidle
    -- An idle session has not been at any stage that comes after a start.
    have hstage := htimely.fresh hidle
    cases h with
    | silent _ client opened => exact .silent (.inr (.inl rfl)) client opened
    | asking stage => exact nomatch hstage.symm.trans stage
    | talking stage => exact nomatch hstage.symm.trans stage
    | leaving stage => exact nomatch hstage.symm.trans stage
    | finished stage =>
      rw [hstage] at stage
      exact nomatch stage
  · exact h
  · exact h

/-- Every step keeps the conversation in order. A session that waits for its stop takes no requests,
so the first case is nothing. -/
theorem Standing.step (h : Standing s) (htimely : Timely s) (e : Event) : Standing (s.step e) := by
  unfold Session.step
  -- A session that is awaited by a stop takes no requests.
  split
  · exact h
  cases e with
  | start => exact h.start htimely
  | openDocument d => exact h.openDocument d
  | closeDocument uri => exact h.closeDocument uri
  | stop => exact h.stop
  | dialed refusal => exact h.dialed refusal
  | spawned verdict => exact h.spawned verdict
  | resume => exact h.resume
  | expire => exact h.expire
  | ambient inner =>
    show Standing (if inner.isAmbient then s.ambient inner else s)
    split
    · -- Of the events of the connection only those are let through that the owner does not direct.
      rename_i hambient
      exact h.ambient hambient
    · exact h
  | child inner =>
    show Standing (if inner.isAmbient then s.child inner else s)
    split
    · exact h.child inner
    · exact h

/-! ### Runs -/

/-- The conversation is in order after any run. By induction on the events, of which the last is one
more step. -/
theorem standing_run (config : Config) (processId : Nat) (events : List Event) :
    Standing (ran config processId events) := by
  induction events using List.reverseRecOn with
  | nil => exact .silent (.inl rfl) rfl rfl
  | append_singleton events e ih =>
    rw [ran_concat]
    exact ih.step (timely_run config processId events) e

/-- The payloads that were taken from the connection so far, in order. -/
def received (s : Session) : List (List Char) :=
  (s.connection.map fun c => c.client.rpc.received).getD []

/-- The texts that have been written to the connection so far, in order. -/
def written (s : Session) : List (List Char) :=
  (s.connection.map fun c => c.client.rpc.stream.written).getD []

/-- A request of a number has been answered well: a response to it was taken, and its result
has the form asked for. -/
def HasAnswer (s : Session) (n : Nat) (shape : Shape) : Prop :=
  ∃ payload ∈ s.received, ∃ r v, Message.parse payload = .ok (.response r) ∧ r.id = .nat n ∧
    r.outcome shape = .ok v

/-- What a session has said after a run. -/
structure Conversed (config : Config) (processId : Nat) (events : List Event) : Prop where
  /-- `initialize`, `initialized`, documents, `shutdown`, `exit`, as far as it comes. -/
  order : InOrder (utterances (ran config processId events).messages)
  /-- What is on the wire is the first of what was queued. -/
  wire : ∃ sent, sent <+: (ran config processId events).messages ∧
    (ran config processId events).written = sent.map Message.frame
  /-- The handshake ends only after `initialize` was answered well. -/
  initialized : .notification "initialized" ∈ utterances (ran config processId events).messages →
    (ran config processId events).HasAnswer 1 initializeResult
  /-- The server is told to exit only after `shutdown` was answered well. -/
  exit : .notification "exit" ∈ utterances (ran config processId events).messages →
    (ran config processId events).HasAnswer 2 .unit
  /-- There is one connection at most. -/
  once : (ran config processId events).opened ≤ 1

/-- A session opens one connection at most: it is counted when the handshake begins, and no stage
leads back to one before that. -/
theorem Standing.opened_le (h : Standing s) : s.opened ≤ 1 := by
  cases h with
  | silent _ _ opened => exact opened ▸ Nat.zero_le 1
  | asking _ _ opened => exact Nat.le_of_eq opened
  | talking _ _ opened => exact Nat.le_of_eq opened
  | leaving _ _ opened => exact Nat.le_of_eq opened
  | finished _ _ opened => exact Nat.le_of_eq opened

/-- Whatever the stage, the conversation is in order so far. This is what all forms of `Standing`
have in common where there is a client. -/
theorem Standing.conducted (h : Standing s) {connection : Connection}
    (hconnection : s.connection = some connection) : Conducted callees connection.client.rpc := by
  have hclient : s.client? = some connection.client := client?_of_connection hconnection
  cases h with
  | silent _ client => exact nomatch client.symm.trans hclient
  | asking _ client _ asking =>
    exact Option.some.inj (client.symm.trans hclient) ▸ asking.conducted
  | talking _ client _ talking =>
    exact Option.some.inj (client.symm.trans hclient) ▸ talking.conducted
  | leaving _ client _ leaving =>
    exact Option.some.inj (client.symm.trans hclient) ▸ leaving.conducted
  | finished _ client _ finished =>
    exact Option.some.inj (client.symm.trans hclient) ▸ finished.conducted

/-- What every session says to its server, whatever happens: any server, any order of events, a stop
at any time. It is what `Standing` says of the client, put in terms of the messages. -/
theorem conversed (config : Config) (processId : Nat) (events : List Event) :
    Conversed config processId events := by
  have hstanding := standing_run config processId events
  cases hconnection : (ran config processId events).connection with
  | none =>
    -- Without a connection nothing has been said.
    have hmessages := messages_of_none hconnection
    have hwritten : (ran config processId events).written = [] := by rw [written, hconnection]; rfl
    refine ⟨?_, ⟨[], List.nil_prefix, hwritten⟩, ?_, ?_, hstanding.opened_le⟩
    · rw [hmessages]
      exact ⟨[], nofun, List.nil_prefix⟩
    · rw [hmessages]
      exact nofun
    · rw [hmessages]
      exact nofun
  | some connection =>
    have hconducted := hstanding.conducted hconnection
    have hmessages := messages_of_some hconnection
    have hwritten : (ran config processId events).written =
        connection.client.rpc.stream.written := by rw [written, hconnection]; rfl
    -- An answer that the client has found was received as a response before.
    have hanswer : ∀ {n shape}, connection.client.rpc.Answered n shape →
        (ran config processId events).HasAnswer n shape := by
      intro n shape hanswered
      rw [HasAnswer, received, hconnection]
      exact hconducted.recorded.exists_response
        (Nat.lt_of_succ_lt (few_lt hconducted.few)) hanswered
    refine ⟨?_, ?_, fun hmem => ?_, fun hmem => ?_, hstanding.opened_le⟩
    · rw [hmessages]
      exact hconducted.order
    · rw [hmessages, hwritten]
      obtain ⟨inner, hrun⟩ := hconducted.run
      rw [hrun]
      exact Client.wired_run inner
    · rw [hmessages] at hmem
      exact hanswer (hconducted.initialized hmem)
    · rw [hmessages] at hmem
      exact hanswer (hconducted.exit hmem)

/-- The server answers a request well. -/
def answering (n : Nat) (result : Json) : List Event :=
  [.ambient (.deliver
      (Text.encode (Framing.frame (Response.success (.nat n) result).toJson.print))),
    .ambient .receiveNext, .resume]

/-- A session whose requests are answered comes to the end of the conversation. -/
example :
    utterances (ran .default 0 ([.start, .dialed none] ++
      answering 1 (.object [("capabilities", .object [])]) ++ [.stop] ++
      answering 2 .null)).messages = LanguageServer.opening ++ ending := by
  decide +kernel

end LanguageClient.Session
