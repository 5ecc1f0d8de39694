import LanguageClient.Proofs.LanguageServer.Handshake
import LanguageClient.Proofs.Session.Tracking

/-!
# `LanguageClient.Proofs.Session.Telling`: what a session tells the server of documents

A session that holds its connection tells the server of every document that is opened or
closed. Before that it tells nothing; the step that ends the handshake tells of all
documents that are tracked by then. `Telling` says this of one step.

The proof needs to know what there is to queue messages with. `Linked` is that: how far the
connection is at each stage, and that the documents that wait to be announced can be.

* `Progress`: what going on with the handshake does.
* `Telling`: the documents, the messages and the stage, before and after a step.
* `Linked.step`: every step but a stop keeps `Linked`, and is a `Telling` unless a close is
  lost.
-/

set_option autoImplicit false

namespace LanguageClient.Session

open LanguageServer

/-! ### Messages -/

/-- The messages of a session are those of its connection. -/
theorem messages_of_some {s : Session} {c : Connection} (h : s.connection = some c) :
    s.messages = c.client.rpc.accepted := by
  rw [messages, h]
  rfl

/-- Without a connection nothing has been said. -/
theorem messages_of_none {s : Session} (h : s.connection = none) : s.messages = [] := by
  rw [messages, h]
  rfl

/-- A session that holds its connection tells its client. -/
theorem heldClient?_of_held {s : Session} (h : s.stage = .held) :
    s.heldClient? = s.connection.map Connection.client := if_pos h

/-- Only a connection that is held has a client to tell. Documents that are opened before are kept
for the end of the handshake. -/
theorem heldClient?_eq_some {s : Session} {client : LanguageServer.Client Handler} :
    s.heldClient? = some client ↔ s.stage = .held ∧
      ∃ c, s.connection = some c ∧ c.client = client := by
  unfold heldClient?
  split
  · rename_i hheld
    rw [Option.map_eq_some_iff]
    exact ⟨fun h => ⟨hheld, h⟩, And.right⟩
  · rename_i hheld
    exact ⟨nofun, fun h => absurd h.1 hheld⟩

/-! ### Connections -/

/-- How far the connection is at each stage before a stop. -/
inductive Link (s : Session) : Prop where
  | none (stage : s.stage = .unopened ∨ s.stage = .opening) (connection : s.connection = .none)
  | handshaking {c : Connection} {call : Nat} (stage : s.stage = .handshaking)
      (connection : s.connection = some c) (activity : c.client.activity = .initializing call)
  | abandoned (stage : s.stage = .abandoned)
  | held {c : Connection} (stage : s.stage = .held) (connection : s.connection = some c)
      (initialized : c.client.initialized = true)

/-- What a session that has not been stopped keeps. -/
structure Linked (s : Session) : Prop where
  /-- Before the start there is no attempt to connect. -/
  fresh : s.phase = .idle → s.stage = .unopened
  distinct : (s.documents.map Document.uri).Nodup
  /-- The server can be told of every document. -/
  valid : ∀ d ∈ s.documents, Uri.isReference d.uri.toList = true
  link : Link s

/-- A new session has no connection and no documents. -/
theorem linked_fresh (config : Config) (processId : Nat) :
    Linked ({ config, processId } : Session) where
  fresh _ := rfl
  distinct := List.nodup_nil
  valid := nofun
  link := .none (.inl rfl) rfl

/-- None of the stages before a stop waits for one, so no request is put off. -/
theorem Link.isStopping {s : Session} (h : Link s) : s.isStopping = false := by
  unfold Session.isStopping
  rcases h with ⟨hstage | hstage, -⟩ | ⟨hstage⟩ | ⟨hstage⟩ | ⟨hstage⟩ <;> rw [hstage] <;> rfl

/-- A connection that is held is there. -/
theorem Link.connection_ne_none {s : Session} (h : Link s) (hstage : s.stage = .held) :
    s.connection ≠ .none := by
  rcases h with ⟨h | h, -⟩ | ⟨h⟩ | ⟨h⟩ | ⟨-, hsome, -⟩
  · exact nomatch h.symm.trans hstage
  · exact nomatch h.symm.trans hstage
  · exact nomatch h.symm.trans hstage
  · exact nomatch h.symm.trans hstage
  · rw [hsome]
    exact nofun

/-- Until the connection has been opened there is none, and so the server has been told nothing. -/
theorem Link.connection_eq_none {s : Session} (h : Link s)
    (hstage : s.stage = .unopened ∨ s.stage = .opening) : s.connection = .none := by
  rcases h with ⟨-, hconnection⟩ | ⟨h⟩ | ⟨h⟩ | ⟨h⟩
  · exact hconnection
  all_goals
    rw [h] at hstage
    exact hstage.elim nofun nofun

/-- During the handshake the client waits for the answer to `initialize`. So whatever the session
goes on with then is that answer or its absence. -/
theorem Link.exists_initializing {s : Session} (h : Link s) (hstage : s.stage = .handshaking)
    {c : Connection} (hconnection : s.connection = some c) :
    ∃ call, c.client.activity = .initializing call := by
  rcases h with ⟨-, hnone⟩ | ⟨-, hsome, hactivity⟩ | ⟨h⟩ | ⟨h⟩
  · exact nomatch hnone.symm.trans hconnection
  · obtain rfl := Option.some.inj (hsome.symm.trans hconnection)
    exact ⟨_, hactivity⟩
  · exact nomatch h.symm.trans hstage
  · exact nomatch h.symm.trans hstage

/-- The client of a connection that is held is initialized, so it can be told of documents. -/
theorem Link.initialized {s : Session} (h : Link s) (hstage : s.stage = .held)
    {c : Connection} (hconnection : s.connection = some c) : c.client.initialized = true := by
  rcases h with ⟨-, hnone⟩ | ⟨h⟩ | ⟨h⟩ | ⟨-, hsome, hinitialized⟩
  · exact nomatch hnone.symm.trans hconnection
  · exact nomatch h.symm.trans hstage
  · exact nomatch h.symm.trans hstage
  · obtain rfl := Option.some.inj (hsome.symm.trans hconnection)
    exact hinitialized

/-- The client that a session tells of its documents has shaken hands. -/
theorem Link.initialized_of_heldClient? {s : Session} (h : Link s)
    {client : LanguageServer.Client Handler} (hheld : s.heldClient? = some client) :
    client.initialized = true := by
  obtain ⟨hstage, c, hconnection, rfl⟩ := heldClient?_eq_some.mp hheld
  exact h.initialized hstage hconnection

/-- What does not touch the operation of the client leaves the connection as far as it is. This
covers all that happens to a connection by itself. -/
theorem Link.map {s after : Session} (h : Link s) (f : Connection → Connection)
    (hactivity : ∀ c, (f c).client.activity = c.client.activity)
    (hinitialized : ∀ c, (f c).client.initialized = c.client.initialized)
    (hstage : after.stage = s.stage) (hconnection : after.connection = s.connection.map f) :
    Link after := by
  cases h with
  | none stage connection =>
    rw [connection] at hconnection
    exact .none (by rw [hstage]; exact stage) hconnection
  | handshaking stage connection activity =>
    rw [connection] at hconnection
    exact .handshaking (hstage.trans stage) hconnection ((hactivity _).trans activity)
  | abandoned stage => exact .abandoned (hstage.trans stage)
  | held stage connection initialized =>
    rw [connection] at hconnection
    exact .held (hstage.trans stage) hconnection ((hinitialized _).trans initialized)

/-- Documents do not matter to the connection. -/
theorem Link.withDocuments {s : Session} (h : Link s) (documents : List Document) :
    Link { s with documents } :=
  h.map id (fun _ => rfl) (fun _ => rfl) rfl (by rw [Option.map_id]; rfl)

/-- Announcing documents after the handshake cannot fail: each of them has a good URI, and the
dispatcher runs. By induction on the documents: each is queued, and leaves a client that can go
on. -/
theorem announce_documents {client : LanguageServer.Client Handler}
    (hinitialized : client.initialized = true) (hrunning : client.rpc.dispatcher = .running)
    {documents : List Document}
    (hvalid : ∀ d ∈ documents, Uri.isReference d.uri.toList = true) :
    (documents.foldl announce client).initialized = true ∧
      (documents.foldl announce client).rpc.accepted =
        client.rpc.accepted ++ documents.map didOpen := by
  induction documents generalizing client with
  | nil => exact ⟨hinitialized, (List.append_nil _).symm⟩
  | cons d documents ih =>
    -- The first document is queued, and the client that has queued it can go on.
    have hannounce : announce client d = client.queueing (didOpen d) := by
      have hopen := Client.openDocument_eq hinitialized (hvalid d List.mem_cons_self)
      rw [if_neg (by rw [hrunning]; exact nofun)] at hopen
      rw [announce, hopen]
      rfl
    have hrest := @ih (client.queueing (didOpen d)) hinitialized hrunning fun d' hd' =>
      hvalid d' (List.mem_cons_of_mem d hd')
    rw [List.foldl_cons, hannounce]
    refine ⟨hrest.1, hrest.2.trans ?_⟩
    rw [List.map_cons, List.append_cons]
    rfl

/-- What going on with a handshake makes of a session: either nothing is said of documents
and the connection is not held, or it is held and all documents have been announced. -/
inductive Progress (s after : Session) : Prop where
  | quietly (more : List Rpc.Message) (quiet : Quiet more)
      (messages : after.messages = s.messages ++ more) (stage : after.stage ≠ .held)
  | announcing (more : List Rpc.Message) (quiet : Quiet more)
      (messages : after.messages = s.messages ++ more ++ s.documents.map didOpen)
      (stage : after.stage = .held)

/-- Going on with the handshake says nothing of documents, unless it ends well. Then `initialized`
comes first, and after it all documents that are tracked. -/
theorem progress_continueHandshake {s : Session} {c : Connection}
    (hstage : s.stage = .handshaking) (hconnection : s.connection = some c)
    (hvalid : ∀ d ∈ s.documents, Uri.isReference d.uri.toList = true)
    {progress : Option Answer × LanguageServer.Client Handler}
    (h : Handshaking c.client progress) :
    Link (s.continueHandshake progress) ∧ Progress s (s.continueHandshake progress) := by
  have hbefore := messages_of_some hconnection
  cases h with
  | @waits client call hactivity haccepted =>
    -- The client waits for the answer, and has queued nothing new.
    have hafter : s.continueHandshake (none, client) =
        { s with connection := some { c with client } } := by
      rw [continueHandshake, withClient, hconnection]
      rfl
    rw [hafter]
    refine ⟨.handshaking hstage rfl hactivity, .quietly [] quiet_nil ?_ ?_⟩
    · rw [List.append_nil, hbefore, ← haccepted]
      rfl
    · rw [hstage]
      decide
  | @fails client e haccepted =>
    -- The handshake fails. The connection is let go, and nothing is announced.
    have hafter : s.continueHandshake (some (.failed e), client) =
        { s with
          stage := .abandoned
          connection := some (Connection.drop { c with client })
          lastError := some (.languageServer e) } := by
      rw [continueHandshake, withClient, hconnection]
      rfl
    rw [hafter]
    refine ⟨.abandoned rfl, .quietly [] quiet_nil ?_ ?_⟩
    · rw [List.append_nil, hbefore, ← haccepted]
      rfl
    · show Stage.abandoned ≠ Stage.held
      decide
  | @ends client result hinitialized hrunning haccepted =>
    -- The session holds the connection from here on, and catches up on what was opened before.
    have hafter : s.continueHandshake (some (.initialized result), client) =
        { s with
          stage := .held
          connection := some { c with client := s.documents.foldl announce client } } := by
      rw [continueHandshake, withClient, hconnection]
      rfl
    obtain ⟨hstill, hannounced⟩ := announce_documents hinitialized hrunning hvalid
    rw [hafter]
    refine ⟨.held rfl rfl hstill, .announcing [initializedMessage] ?_ ?_ rfl⟩
    · intro m hm
      rw [List.mem_singleton.mp hm]
      rfl
    · rw [hbefore, ← haccepted, ← hannounced]
      rfl

/-- A connection that is there begins its handshake, or fails at once if the greeting cannot be
sent. All that it has queued by then is new, as there was no connection before. -/
theorem progress_connected {s : Session} (hconnection : s.connection = none)
    (hvalid : ∀ d ∈ s.documents, Uri.isReference d.uri.toList = true) (stream : Stream)
    (process : Option ChildProcess.Manager) :
    Link (s.connected stream process) ∧ Progress s (s.connected stream process) := by
  obtain ⟨begun, hquiet, hbegun⟩ :=
    handshaking_handshake (c := newClient s.config s.processId stream) rfl nofun s.config.rootUri
  -- What counts of the client before it goes on is what it has queued by then.
  have hprogress := progress_continueHandshake
    (s := { s with
      stage := .handshaking
      connection := some { client := begun, process }
      opened := s.opened + 1 }) rfl rfl hvalid hbegun
  refine ⟨hprogress.1, ?_⟩
  have hbefore := messages_of_none hconnection
  cases hprogress.2 with
  | quietly more hmore hmessages hstage =>
    exact .quietly (begun.rpc.accepted ++ more) (hquiet.append hmore)
      (by rw [hbefore]; exact hmessages) hstage
  | announcing more hmore hmessages hstage =>
    exact .announcing (begun.rpc.accepted ++ more) (hquiet.append hmore)
      (by rw [hbefore]; exact hmessages) hstage

/-- An attempt that fails before there is a connection says nothing, and leaves none. -/
theorem progress_fail {s : Session} (hconnection : s.connection = none) (e : SessionError) :
    Link (s.fail e) ∧ Progress s (s.fail e) := by
  refine ⟨.abandoned rfl, .quietly [] quiet_nil ?_ nofun⟩
  rw [List.append_nil, messages_of_none hconnection]
  refine messages_of_none ?_
  show s.connection.map Connection.drop = none
  rw [hconnection]
  rfl

/-! ### Steps -/

/-- A step closes a document, and the server cannot be told any more. -/
def LosesClose (s : Session) : Event → Prop
  | .closeDocument uri =>
    (s.closeDocument uri).1 = .error (.languageServer (.call .disconnected))
  | _ => False

/-- What a step does to the documents of a session, and what it says of them. -/
inductive Telling (s : Session) (e : Event) (after : Session) : Prop where
  | quietly (more : List Rpc.Message) (quiet : Quiet more)
      (documents : after.documents = s.documents)
      (messages : after.messages = s.messages ++ more)
      (stage : after.stage = .held ↔ s.stage = .held)
  | announcing (more : List Rpc.Message) (quiet : Quiet more)
      (documents : after.documents = s.documents)
      (messages : after.messages = s.messages ++ more ++ s.documents.map didOpen)
      (before : s.stage ≠ .held) (stage : after.stage = .held)
  | opening (d : Document) (event : e = .openDocument d) (new : s.document? d.uri = none)
      (valid : Uri.isReference d.uri.toList = true)
      (documents : after.documents = insert d s.documents)
      (messages : after.messages = s.messages ++ if s.stage = .held then [didOpen d] else [])
      (stage : after.stage = s.stage)
  | closing (uri : String) (event : e = .closeDocument uri) (tracked : s.document? uri ≠ none)
      (documents : after.documents = s.documents.filter fun d => d.uri != uri)
      (messages : after.messages = s.messages ++ if s.stage = .held then [didClose uri] else [])
      (stage : after.stage = s.stage)

/-- A step that changes nothing tells nothing. -/
theorem Telling.refl (s : Session) (e : Event) : Telling s e s :=
  .quietly [] quiet_nil rfl (List.append_nil _).symm Iff.rfl

/-- What the handshake tells, as the telling of a step: it does not change the documents. Whether
they are announced is read off the stage afterwards. -/
theorem Progress.telling {s after : Session} (h : Progress s after) (e : Event)
    (hdocuments : after.documents = s.documents) (hstage : s.stage ≠ .held) :
    Telling s e after := by
  cases h with
  | quietly more quiet messages stage =>
    exact .quietly more quiet hdocuments messages
      ⟨fun h => absurd h stage, fun h => absurd h hstage⟩
  | announcing more quiet messages stage =>
    exact .announcing more quiet hdocuments messages hstage stage

/-- The documents of a session stay distinct, and the server can be told of them. Only an opening
adds one, which is new and has a good URI. -/
theorem Telling.documents {s after : Session} {e : Event} (h : Telling s e after)
    (hdistinct : (s.documents.map Document.uri).Nodup)
    (hvalid : ∀ d ∈ s.documents, Uri.isReference d.uri.toList = true) :
    (after.documents.map Document.uri).Nodup ∧
      ∀ d ∈ after.documents, Uri.isReference d.uri.toList = true := by
  cases h with
  | quietly more quiet documents =>
    rw [documents]
    exact ⟨hdistinct, hvalid⟩
  | announcing more quiet documents =>
    rw [documents]
    exact ⟨hdistinct, hvalid⟩
  | opening d event new valid documents =>
    rw [documents]
    -- `new` keeps the documents distinct, and `valid` is what the session has checked of the URI.
    refine ⟨nodup_insert hdistinct new, fun d' hd' => ?_⟩
    rcases mem_insert.mp hd' with rfl | hd'
    · exact valid
    · exact hvalid d' hd'
  | closing uri event tracked documents =>
    rw [documents]
    -- What is left was there before.
    exact ⟨hdistinct.sublist (List.filter_sublist.map Document.uri), fun d hd =>
      hvalid d (List.mem_filter.mp hd).1⟩

/-- Since the documents stay as they have to, it is enough to look at connection and stage. -/
theorem Linked.of_telling {s after : Session} {e : Event} (h : Linked s)
    (htelling : Telling s e after) (hlink : Link after)
    (hfresh : after.phase = .idle → after.stage = .unopened) : Linked after :=
  have hdocuments := htelling.documents h.distinct h.valid
  ⟨hfresh, hdocuments.1, hdocuments.2, hlink⟩

/-- A step that goes on with the handshake keeps the session linked, and tells what the handshake
has queued. -/
theorem Linked.of_progress {s after : Session} (h : Linked s) (e : Event)
    (hprogress : Link after ∧ Progress s after) (hdocuments : after.documents = s.documents)
    (hphase : after.phase = s.phase) (hopened : s.stage ≠ .unopened) (hheld : s.stage ≠ .held) :
    Linked after ∧ Telling s e after := by
  have htelling := hprogress.2.telling e hdocuments hheld
  refine ⟨h.of_telling htelling hprogress.1 fun hidle => ?_, htelling⟩
  exact absurd (h.fresh (hphase ▸ hidle)) hopened

/-- A session without a client to tell does not hold a connection. -/
theorem Link.stage_ne_held {s : Session} (h : Link s) (hnone : s.heldClient? = .none) :
    s.stage ≠ .held := by
  intro hstage
  rw [heldClient?_of_held hstage, Option.map_eq_none_iff] at hnone
  exact h.connection_ne_none hstage hnone

/-- A session that holds its connection tells the server one more thing, and nothing else changes
but the documents. -/
theorem Link.queueing {s : Session} (h : Link s) {client : LanguageServer.Client Handler}
    (hheld : s.heldClient? = some client) (m : Rpc.Message) (documents : List Document) :
    let after := { s.withClient (client.queueing m) with documents }
    Link after ∧ after.messages = s.messages ++ [m] ∧ after.stage = s.stage ∧
      after.phase = s.phase := by
  have hinitialized := h.initialized_of_heldClient? hheld
  obtain ⟨hstage, c, hconnection, rfl⟩ := heldClient?_eq_some.mp hheld
  have hafter : s.withClient (c.client.queueing m) =
      { s with connection := some { c with client := c.client.queueing m } } := by
    rw [withClient, hconnection]
    rfl
  rw [hafter, messages_of_some hconnection]
  exact ⟨.held hstage rfl hinitialized, rfl, rfl, rfl⟩

/-- The server can be told of a document that is tracked, since its URI was looked at when it was
opened. -/
theorem Linked.isReference {s : Session} (h : Linked s) {uri : String}
    (htracked : s.document? uri ≠ none) : Uri.isReference uri.toList = true := by
  obtain ⟨d, hd⟩ := Option.ne_none_iff_exists'.mp htracked
  obtain ⟨hmem, rfl⟩ := mem_of_findUri hd
  exact h.valid d hmem

/-- A start says nothing yet. It only makes the session open its connection, and it is possible
once. -/
theorem Linked.start {s : Session} (h : Linked s) :
    Linked (s.take .start) ∧ Telling s .start (s.take .start) := by
  show Linked (s.start.toOption.getD s) ∧ Telling s .start (s.start.toOption.getD s)
  unfold Session.start
  split
  · rename_i hidle
    -- An idle session is unopened, so it has no connection that could have said something.
    have hstage := h.fresh hidle
    have htelling : Telling s .start { s with
        phase := .connecting, indicator := s.indicator.showStarting, stage := .opening } :=
      .quietly [] quiet_nil rfl (List.append_nil _).symm
        ⟨nofun, fun hheld => nomatch hstage.symm.trans hheld⟩
    exact ⟨h.of_telling htelling (.none (.inr rfl) (h.link.connection_eq_none (.inl hstage)))
      nofun, htelling⟩
  · exact ⟨h, .refl s _⟩
  · exact ⟨h, .refl s _⟩

/-- A dial begins the handshake or fails. A session that does not wait for one takes no notice of
it. -/
theorem Linked.dialed {s : Session} (h : Linked s) (refusal : Option SystemError) (e : Event) :
    Linked (s.dialed refusal) ∧ Telling s e (s.dialed refusal) := by
  unfold Session.dialed
  split
  · rename_i hstage _
    have hnone := h.link.connection_eq_none (.inr hstage)
    exact h.of_progress e (progress_fail hnone _) rfl rfl (by rw [hstage]; exact nofun)
      (by rw [hstage]; exact nofun)
  · rename_i hstage _
    have hnone := h.link.connection_eq_none (.inr hstage)
    exact h.of_progress e (progress_connected hnone h.valid _ _) (moves_connected s _ _).documents
      (moves_connected s _ _).phase (by rw [hstage]; exact nofun) (by rw [hstage]; exact nofun)
  · exact ⟨h, .refl s e⟩

/-- Spawning the server begins the handshake or fails. A session that does not wait for it takes no
notice of it. -/
theorem Linked.spawned {s : Session} (h : Linked s) (verdict : Except SystemError Nat)
    (e : Event) : Linked (s.spawned verdict) ∧ Telling s e (s.spawned verdict) := by
  unfold Session.spawned
  split
  · rename_i hstage _
    have hnone := h.link.connection_eq_none (.inr hstage)
    have hopened : s.stage ≠ .unopened := by rw [hstage]; exact nofun
    have hheld : s.stage ≠ .held := by rw [hstage]; exact nofun
    dsimp only
    split
    · exact h.of_progress e (progress_connected hnone h.valid _ _) (moves_connected s _ _).documents
        (moves_connected s _ _).phase hopened hheld
    · exact h.of_progress e (progress_fail hnone _) rfl rfl hopened hheld
  · exact ⟨h, .refl s e⟩

/-- A handshake that goes on keeps the connection in order, and tells what has to be told by
then. -/
theorem Linked.handshaking {s : Session} (h : Linked s) (e : Event) {c : Connection}
    (hstage : s.stage = .handshaking) (hconnection : s.connection = some c)
    {progress : Option Answer × LanguageServer.Client Handler}
    (hprogress : Handshaking c.client progress) :
    Linked (s.continueHandshake progress) ∧ Telling s e (s.continueHandshake progress) :=
  h.of_progress e (progress_continueHandshake hstage hconnection h.valid hprogress)
    (moves_continueHandshake s progress).documents (moves_continueHandshake s progress).phase
    (by rw [hstage]; exact nofun) (by rw [hstage]; exact nofun)

/-- What has come for the client takes the handshake on. The stages of a stop do not occur, since
the link is only for sessions that have not been stopped. -/
theorem Linked.resume {s : Session} (h : Linked s) (e : Event) :
    Linked s.resume ∧ Telling s e s.resume := by
  -- This excludes the two stages of a stop at which something can go on.
  have hstopping := h.link.isStopping
  unfold Session.isStopping at hstopping
  unfold Session.resume
  split
  · rename_i hstage hconnection
    obtain ⟨call, hactivity⟩ := h.link.exists_initializing hstage hconnection
    exact h.handshaking e hstage hconnection (handshaking_resume hactivity)
  · rename_i hstage _
    rw [hstage] at hstopping
    exact nomatch hstopping
  · rename_i hstage
    rw [hstage] at hstopping
    exact nomatch hstopping
  · exact ⟨h, .refl s e⟩

/-- Time that is over takes the handshake on, which fails by it. The stages of a stop do not occur,
since the link is only for sessions that have not been stopped. -/
theorem Linked.expire {s : Session} (h : Linked s) (e : Event) :
    Linked s.expire ∧ Telling s e s.expire := by
  -- This excludes the two stages of a stop at which a time runs.
  have hstopping := h.link.isStopping
  unfold Session.isStopping at hstopping
  unfold Session.expire
  split
  · rename_i hstage hconnection
    obtain ⟨call, hactivity⟩ := h.link.exists_initializing hstage hconnection
    exact h.handshaking e hstage hconnection (handshaking_expire hactivity)
  · rename_i hstage _
    rw [hstage] at hstopping
    exact nomatch hstopping
  · rename_i hstage _
    rw [hstage] at hstopping
    exact nomatch hstopping
  · exact ⟨h, .refl s e⟩

/-- What happens on the connection by itself adds answers to what is said, and nothing about
documents. -/
theorem Linked.ambient {s : Session} (h : Linked s) (e : Event) {inner : Rpc.Event Handler}
    (hambient : inner.isAmbient = true) :
    Linked (s.ambient inner) ∧ Telling s e (s.ambient inner) := by
  cases hconnection : s.connection with
  | none =>
    have hsame : s.ambient inner = s := by rw [Session.ambient, hconnection]
    rw [hsame]
    exact ⟨h, .refl s e⟩
  | some c =>
    -- What the server sends is heeded, and answered if it is a request; no document is in it.
    obtain ⟨phase, indicator, relayed, hafter, hidle⟩ := ambient_eq hconnection inner
    obtain ⟨responses, hresponses⟩ :=
      (Rpc.advance_step c.client.rpc inner).said (Rpc.directs_of_isAmbient hambient)
    have hmessages : (s.ambient inner).messages = s.messages ++ responses.map .response := by
      rw [messages_of_some hconnection, hafter]
      exact hresponses
    have htelling : Telling s e (s.ambient inner) :=
      .quietly (responses.map .response) (quiet_responses responses) (by rw [hafter]) hmessages
        (by rw [hafter])
    refine ⟨h.of_telling htelling ?_ ?_, htelling⟩
    · refine h.link.map
        (fun c => { c with client := { c.client with rpc := c.client.rpc.step inner } })
        (fun _ => rfl) (fun _ => rfl) (by rw [hafter]) ?_
      rw [hafter, hconnection]
      rfl
    · rw [hafter]
      exact fun hphase => h.fresh (hidle hphase)

/-- What the server's process does by itself says nothing. It changes the child of the connection,
and leaves the client as it is. -/
theorem Linked.child {s : Session} (h : Linked s) (e : Event) (inner : ChildProcess.Event) :
    Linked (s.child inner) ∧ Telling s e (s.child inner) := by
  have hmessages : (s.child inner).messages = s.messages := by
    show ((s.connection.map _).map _).getD [] = _
    rw [Option.map_map]
    rfl
  have htelling : Telling s e (s.child inner) :=
    .quietly [] quiet_nil rfl (by rw [hmessages, List.append_nil]) Iff.rfl
  have hlink : Link (s.child inner) :=
    h.link.map (fun c => { c with process := c.process.map fun m => m.step inner })
      (fun _ => rfl) (fun _ => rfl) rfl rfl
  exact ⟨h.of_telling htelling hlink h.fresh, htelling⟩

/-- Opening a document tells the server if the connection is held. If that cannot be sent, the
document is not tracked either. -/
theorem Linked.openDocument {s : Session} (h : Linked s) (d : Document) :
    Linked (s.take (.openDocument d)) ∧
      Telling s (.openDocument d) (s.take (.openDocument d)) := by
  have hopening := Session.opening s d
  generalize s.take (.openDocument d) = after at hopening ⊢
  cases hopening with
  | same => exact ⟨h, .refl s _⟩
  | deferred hnew hvalid hheld =>
    have hstage := h.link.stage_ne_held hheld
    have htelling : Telling s (.openDocument d) { s with documents := insert d s.documents } :=
      .opening d rfl hnew hvalid rfl (by rw [if_neg hstage]; exact (List.append_nil _).symm) rfl
    exact ⟨h.of_telling htelling (h.link.withDocuments _) h.fresh, htelling⟩
  | @told client after hnew hvalid hheld hsent =>
    -- The client has accepted the message, so it was queued.
    rw [Client.openDocument_eq (h.link.initialized_of_heldClient? hheld) hvalid] at hsent
    split at hsent
    · cases hsent
    obtain rfl := Except.ok.inj hsent
    obtain ⟨hlink, hmessages, hstage, hphase⟩ :=
      h.link.queueing hheld (didOpen d) (insert d s.documents)
    have htelling := Telling.opening d rfl hnew hvalid rfl
      (by rw [hmessages, if_pos (heldClient?_eq_some.mp hheld).1]) hstage
    exact ⟨h.of_telling htelling hlink fun hidle => hstage ▸ h.fresh (hphase ▸ hidle), htelling⟩

/-- Closing a document tells the server if the connection is held. The hypothesis excludes the one
case in which the two views part: the document is forgotten, and the server cannot be told. -/
theorem Linked.closeDocument {s : Session} (h : Linked s) (uri : String)
    (hsent : ¬ s.LosesClose (.closeDocument uri)) :
    Linked (s.take (.closeDocument uri)) ∧
      Telling s (.closeDocument uri) (s.take (.closeDocument uri)) := by
  have hclosing := Session.closing s uri
  generalize s.take (.closeDocument uri) = after at hclosing ⊢
  cases hclosing with
  | same => exact ⟨h, .refl s _⟩
  | deferred htracked hheld =>
    -- Without a held connection nothing is told, so what the server has been told stays as it is.
    have hstage := h.link.stage_ne_held hheld
    have htelling : Telling s (.closeDocument uri)
        { s with documents := s.documents.filter fun d => d.uri != uri } :=
      .closing uri rfl htracked rfl (by rw [if_neg hstage]; exact (List.append_nil _).symm) rfl
    exact ⟨h.of_telling htelling (h.link.withDocuments _) h.fresh, htelling⟩
  | @told client after htracked hheld hsent =>
    -- The document was tracked, so its URI is a good one and only the dispatcher could refuse.
    rw [Client.closeDocument_eq (h.link.initialized_of_heldClient? hheld)
      (h.isReference htracked)] at hsent
    split at hsent
    · cases hsent
    obtain rfl := Except.ok.inj hsent
    obtain ⟨hlink, hmessages, hstage, hphase⟩ :=
      h.link.queueing hheld (didClose uri) (s.documents.filter fun d => d.uri != uri)
    have htelling := Telling.closing uri rfl htracked rfl
      (by rw [hmessages, if_pos (heldClient?_eq_some.mp hheld).1]) hstage
    exact ⟨h.of_telling htelling hlink fun hidle => hstage ▸ h.fresh (hphase ▸ hidle), htelling⟩
  | lost htracked hheld hfailed hanswer =>
    -- The URI is a good one, so only a dispatcher that has ended can be in the way.
    rw [Client.closeDocument_eq (h.link.initialized_of_heldClient? hheld)
      (h.isReference htracked)] at hfailed
    split at hfailed
    · obtain rfl := Except.error.inj hfailed
      exact absurd hanswer hsent
    · cases hfailed

/-- Every step but a stop keeps the connection in order. Unless a close is lost, it tells the server
what it has to. -/
theorem Linked.step {s : Session} (h : Linked s) {e : Event} (hstop : e ≠ .stop)
    (hsent : ¬ s.LosesClose e) : Linked (s.step e) ∧ Telling s e (s.step e) := by
  -- Nobody waits for a stop, so every event is taken.
  have hstep : s.step e = s.take e :=
    if_neg fun hboth => absurd hboth.2 (by rw [h.link.isStopping]; exact Bool.false_ne_true)
  rw [hstep]
  cases e with
  | start => exact h.start
  | openDocument d => exact h.openDocument d
  | closeDocument uri => exact h.closeDocument uri hsent
  | stop => exact absurd rfl hstop
  | dialed refusal => exact h.dialed refusal _
  | spawned verdict => exact h.spawned verdict _
  | resume => exact h.resume _
  | expire => exact h.expire _
  | ambient inner =>
    show Linked (if inner.isAmbient then s.ambient inner else s) ∧
      Telling s _ (if inner.isAmbient then s.ambient inner else s)
    split
    · rename_i hambient
      exact h.ambient _ hambient
    · exact ⟨h, .refl s _⟩
  | child inner =>
    show Linked (if inner.isAmbient then s.child inner else s) ∧
      Telling s _ (if inner.isAmbient then s.child inner else s)
    split
    · exact h.child _ inner
    · exact ⟨h, .refl s _⟩

end LanguageClient.Session
