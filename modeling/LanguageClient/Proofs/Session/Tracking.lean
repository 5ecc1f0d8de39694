import LanguageClient.Proofs.LanguageServer.Documents
import LanguageClient.Session.Run

/-!
# `LanguageClient.Proofs.Session.Tracking`: the documents of a session

Three events change which documents a session tracks: one is opened, one is closed, or the
session is stopped (`documents_step`). From that follows where a tracked document comes
from.

* `Opening`, `Closing`: what a request to open or close a document makes of a session.
* `document?_step`: what a step does to the document of one URI.
* `exists_openDocument`: a tracked document is that of the call that opened it, and has
  been tracked since.
* `step_openDocument_of_rejects`: a document that is rejected changes nothing at all.
-/

set_option autoImplicit false

namespace LanguageClient.Session

open LanguageServer (findUri findUri_cons findUri_eq_none)

/-! ### Lists of documents -/

/-- The document that a session tracks under a URI. -/
def document? (s : Session) (uri : String) : Option Document := findUri s.documents uri

/-- A URI is tracked if there is a document for it. -/
theorem tracks_eq (s : Session) (uri : String) : s.tracks uri = (s.document? uri).isSome := by
  rw [tracks, document?, findUri, List.isSome_find?]

/-- A URI is not tracked if there is none. -/
theorem tracks_eq_false {s : Session} {uri : String} :
    s.tracks uri = false ↔ s.document? uri = none := by
  rw [tracks_eq, Option.isSome_eq_false_iff, Option.isNone_iff_eq_none]

/-- A document that is inserted is added to the others, wherever it is put. The documents are kept
in order of their URIs, and this is for those who do not ask for the order. -/
theorem mem_insert {d e : Document} {documents : List Document} :
    e ∈ insert d documents ↔ e = d ∨ e ∈ documents := by
  induction documents with
  | nil => exact List.mem_cons
  | cons first rest ih =>
    rw [insert]
    split
    · exact List.mem_cons
    · rw [List.mem_cons, ih, List.mem_cons]
      exact or_left_comm

/-- A document that is inserted is found under its URI, and the others as before. The list is kept
sorted, so `d` may stand in the middle; that it is new (`hnew`) makes the place not matter. -/
theorem findUri_insert {d : Document} {documents : List Document}
    (hnew : findUri documents d.uri = none) (uri : String) :
    findUri (insert d documents) uri = if d.uri = uri then some d else findUri documents uri := by
  induction documents with
  | nil => exact findUri_cons d [] uri
  | cons first rest ih =>
    rw [insert]
    split
    · exact findUri_cons d (first :: rest) uri
    · rw [findUri_cons] at hnew
      split at hnew
      · exact nomatch hnew
      · rename_i hne
        rw [findUri_cons, findUri_cons, ih hnew]
        -- No document has the URI yet, so `first` and `d` are not both meant.
        by_cases hfirst : first.uri = uri
        · rw [if_pos hfirst, if_pos hfirst, if_neg fun heq => hne (hfirst.trans heq.symm)]
        · rw [if_neg hfirst, if_neg hfirst]

/-- A URI that is filtered out is not found any more, and the others as before. So closing one
document does not concern the others. -/
theorem findUri_without (documents : List Document) (closed uri : String) :
    findUri (documents.filter fun d => d.uri != closed) uri =
      if closed = uri then none else findUri documents uri := by
  rw [findUri, List.find?_filter]
  by_cases huri : closed = uri
  · rw [if_pos huri, List.find?_eq_none]
    intro d _
    simp [huri]
  · rw [if_neg huri, findUri]
    -- A document with this URI is not filtered out, so both searches look for the same ones.
    refine congrArg (fun p => documents.find? p) (funext fun d => ?_)
    by_cases hd : d.uri = uri
    · simp [hd, Ne.symm huri]
    · simp [hd]

/-- Inserting a document with a new URI keeps the URIs distinct. By induction on the documents,
since its place is found by going through them. -/
theorem nodup_insert {d : Document} {documents : List Document}
    (h : (documents.map Document.uri).Nodup) (hnew : findUri documents d.uri = none) :
    ((insert d documents).map Document.uri).Nodup := by
  have hother := findUri_eq_none.mp hnew
  induction documents with
  | nil => exact List.pairwise_singleton _ _
  | cons first rest ih =>
    have hcons : ((d :: first :: rest).map Document.uri).Nodup := by
      refine List.nodup_cons.mpr ⟨fun hmem => ?_, h⟩
      obtain ⟨e, he, heq⟩ := List.mem_map.mp hmem
      exact hother e he heq
    rw [insert]
    split
    · exact hcons
    · -- `first` stays in front; what comes behind it are `d` and the rest.
      obtain ⟨hfirst, hrest⟩ := List.nodup_cons.mp h
      have hnew' : ∀ e ∈ rest, e.uri ≠ d.uri := fun e he =>
        hother e (List.mem_cons_of_mem first he)
      refine List.nodup_cons.mpr ⟨fun hmem => ?_, ih hrest (findUri_eq_none.mpr hnew') hnew'⟩
      obtain ⟨e, he, heq⟩ := List.mem_map.mp hmem
      rcases mem_insert.mp he with rfl | he
      · exact hother first List.mem_cons_self heq.symm
      · exact hfirst (heq ▸ List.mem_map_of_mem he)

/-! ### Steps -/

/-- A session rejects a document that is not selected, one whose URI is none, and any
document once it is stopped. -/
def Rejects (s : Session) (d : Document) : Prop :=
  s.routes d = false ∨ s.phase = .stopped ∨ Uri.isReference d.uri.toList = false

/-- A document that the session rejects changes nothing, neither what it tracks nor what it has
sent. The three reasons are asked for before anything is done. -/
theorem step_openDocument_of_rejects {s : Session} {d : Document} (h : s.Rejects d) :
    s.step (.openDocument d) = s := by
  have hrejected : ((s.openDocument d).toOption.map Prod.snd).getD s = s := by
    unfold openDocument
    split
    · rfl
    · rename_i hroutes
      split
      · rfl
      · rename_i hphase
        -- Of the three reasons the first two have been asked for above.
        rcases h with h | h | h
        · exact absurd (by rw [h]; exact Bool.false_ne_true) hroutes
        · exact absurd h hphase
        · rw [if_pos (by rw [h]; exact Bool.false_ne_true)]
          rfl
  unfold step
  split
  · rfl
  · exact hrejected

/-- Whether a handler was called because the server is ready. -/
def isReadiness : Rpc.Handled Handler → Bool
  | .notification .readiness _ => true
  | _ => false

/-- The handlers that a step of the connection calls. -/
def news (c : Connection) (e : Rpc.Event Handler) : List (Rpc.Handled Handler) :=
  (c.client.rpc.step e).handled.drop c.client.rpc.handled.length

/-- What a session makes of the news of its connection. -/
def heeding (s : Session) (news : List (Rpc.Handled Handler)) : Session :=
  if news.any isReadiness then s.markReady else s

/-- That the server is ready changes phase and item, and does not make a session idle. -/
theorem markReady_eq (s : Session) :
    ∃ phase indicator, s.markReady = { s with phase, indicator } ∧
      (phase = .idle → s.phase = .idle) := by
  unfold markReady
  split
  · exact ⟨.ready, _, rfl, nofun⟩
  · exact ⟨s.phase, s.indicator, rfl, id⟩

/-- That the server is ready counts once. So several notifications in one step are as good as
one. -/
theorem markReady_markReady (s : Session) : s.markReady.markReady = s.markReady := by
  by_cases h : s.phase = .connecting
  · rw [markReady, markReady, if_pos h]
    rfl
  · rw [markReady, markReady, if_neg h, if_neg h]

/-- What goes to the log has nothing to do with it, and neither has the connection
(`heeding_connection`). -/
theorem heeding_relayed (s : Session) (relayed : List Notice)
    (news : List (Rpc.Handled Handler)) :
    ({ s with relayed } : Session).heeding news = { s.heeding news with relayed } := by
  unfold heeding markReady
  split
  · dsimp only
    split <;> rfl
  · rfl

/-- Heeding what the server has said does not look at the connection. So the two changes of a step,
to the connection and to the phase, can be told apart. -/
theorem heeding_connection (s : Session) (connection : Option Connection)
    (news : List (Rpc.Handled Handler)) :
    ({ s with connection } : Session).heeding news = { s.heeding news with connection } := by
  unfold heeding markReady
  split
  · dsimp only
    split <;> rfl
  · rfl

/-- Heeding messages of the server changes how far the session is, and what it shows, if the server
is ready. By induction on the messages: relayed ones go to the log, and the first one about
readiness decides the rest. -/
theorem heed_eq (s : Session) (news : List (Rpc.Handled Handler)) :
    ∃ relayed, news.foldl heed s = { s.heeding news with relayed } := by
  induction news generalizing s with
  | nil => exact ⟨s.relayed, rfl⟩
  | cons h news ih =>
    obtain ⟨relayed, heq⟩ := ih (s.heed h)
    refine ⟨relayed, ?_⟩
    rw [List.foldl_cons, heq]
    cases h with
    | request r => rfl
    | notification handler n =>
      cases handler with
      | relay =>
        have hlog := heeding_relayed s (s.relayed ++ (relayed? n).toList) news
        show { ({ s with relayed := s.relayed ++ (relayed? n).toList } : Session).heeding news with
          relayed } = _
        rw [hlog]
        rfl
      | readiness =>
        -- Whatever comes later, the server is ready now.
        have hready : s.markReady.heeding news = s.markReady := by
          rw [heeding, markReady_markReady, ite_self]
        show { s.markReady.heeding news with relayed } = _
        rw [hready]
        rfl

/-- A step of the connection, and what the session makes of it. All later lemmas about such steps
begin here. -/
theorem ambient_eq_heeding {s : Session} {c : Connection} (h : s.connection = some c)
    (e : Rpc.Event Handler) :
    ∃ relayed, s.ambient e =
      { s.heeding (news c e) with
        relayed
        connection := some { c with client := { c.client with rpc := c.client.rpc.step e } } } := by
  unfold ambient
  rw [h]
  dsimp only
  -- The connection goes on first, and then the session heeds the news of that step.
  obtain ⟨relayed, heq⟩ :=
    heed_eq (s.withClient { c.client with rpc := c.client.rpc.step e }) (news c e)
  refine ⟨relayed, heq.trans ?_⟩
  rw [withClient, h]
  exact congrArg (fun s : Session => { s with relayed }) (heeding_connection s _ (news c e))

/-- What a step of the connection leaves alone: stage, documents, and all else that is not named.
The phase may change, but no session becomes idle by it. -/
theorem ambient_eq {s : Session} {c : Connection} (h : s.connection = some c)
    (e : Rpc.Event Handler) :
    ∃ phase indicator relayed, s.ambient e =
        { s with
          phase, indicator, relayed
          connection := some { c with client := { c.client with rpc := c.client.rpc.step e } } } ∧
      (phase = .idle → s.phase = .idle) := by
  obtain ⟨relayed, heq⟩ := ambient_eq_heeding h e
  rw [heq]
  unfold heeding
  split
  · obtain ⟨phase, indicator, hmark, hidle⟩ := s.markReady_eq
    rw [hmark]
    exact ⟨phase, indicator, relayed, rfl, hidle⟩
  · exact ⟨s.phase, s.indicator, relayed, rfl, id⟩

/-- A session whose connection goes on: how far it is may change, and nothing of what the
session shows and tracks. -/
def Moves (s after : Session) : Prop :=
  ∃ stage connection opened lastError, after = { s with stage, connection, opened, lastError }

/-- A session that does not go on does not move. -/
theorem Moves.refl (s : Session) : Moves s s := ⟨_, _, _, _, rfl⟩

/-- What changes in two moves is among what may change in one. -/
theorem Moves.trans {s middle after : Session} (h : Moves s middle) (h' : Moves middle after) :
    Moves s after := by
  obtain ⟨_, _, _, _, rfl⟩ := h
  obtain ⟨_, _, _, _, rfl⟩ := h'
  exact ⟨_, _, _, _, rfl⟩

/-- Going on tracks nothing. -/
theorem Moves.documents {s after : Session} (h : Moves s after) :
    after.documents = s.documents := by
  obtain ⟨_, _, _, _, rfl⟩ := h
  rfl

/-- Going on leaves the phase to the owner and to the server. -/
theorem Moves.phase {s after : Session} (h : Moves s after) : after.phase = s.phase := by
  obtain ⟨_, _, _, _, rfl⟩ := h
  rfl

/-- Going on shows nothing. -/
theorem Moves.indicator {s after : Session} (h : Moves s after) :
    after.indicator = s.indicator := by
  obtain ⟨_, _, _, _, rfl⟩ := h
  rfl

/-- Replacing the client changes the connection only. -/
theorem moves_withClient (s : Session) (client : LanguageServer.Client Handler) :
    Moves s (s.withClient client) := ⟨_, _, _, _, rfl⟩

/-- The handshake changes stage, connection and recorded failure. Phase and documents are set by
others, whether it ends well or not. -/
theorem moves_continueHandshake (s : Session)
    (progress : Option LanguageServer.Answer × LanguageServer.Client Handler) :
    Moves s (s.continueHandshake progress) := by
  refine (moves_withClient s progress.2).trans ?_
  unfold continueHandshake
  dsimp only
  split
  · unfold afterHandshake
    split
    · exact ⟨_, _, _, _, rfl⟩
    · exact ⟨_, _, _, _, rfl⟩
  · exact .refl _

/-- Waiting for the server to exit changes stage and connection. -/
theorem moves_continueStop (s : Session) : Moves s s.continueStop := by
  unfold continueStop
  split
  · exact ⟨_, _, _, _, rfl⟩
  · exact ⟨_, _, _, _, rfl⟩

/-- Closing, and what follows it, changes stage and connection. Phase and documents have been set by
the stop before. -/
theorem moves_continueClose (s : Session)
    (progress : Option LanguageServer.Answer × LanguageServer.Client Handler) :
    Moves s (s.continueClose progress) := by
  refine (moves_withClient s progress.2).trans ?_
  unfold continueClose
  dsimp only
  split
  · unfold afterClose
    dsimp only
    split
    · split
      · exact Moves.trans ⟨_, _, _, _, rfl⟩ (moves_continueStop _)
      · exact ⟨_, _, _, _, rfl⟩
    · exact ⟨_, _, _, _, rfl⟩
  · exact .refl _

/-- A new connection is counted, and begins its handshake. -/
theorem moves_connected (s : Session) (stream : Stream) (process : Option ChildProcess.Manager) :
    Moves s (s.connected stream process) :=
  Moves.trans ⟨_, _, _, _, rfl⟩ (moves_continueHandshake _ _)

/-- A dial gives a connection or a failure. -/
theorem moves_dialed (s : Session) (refusal : Option SystemError) : Moves s (s.dialed refusal) := by
  unfold dialed
  split
  · exact ⟨_, _, _, _, rfl⟩
  · exact moves_connected _ _ _
  · exact .refl s

/-- Spawning the server gives a connection or a failure. It does not change the phase, the item or
the documents. -/
theorem moves_spawned (s : Session) (verdict : Except SystemError Nat) :
    Moves s (s.spawned verdict) := by
  unfold spawned
  split
  · dsimp only
    split
    · exact moves_connected _ _ _
    · exact ⟨_, _, _, _, rfl⟩
  · exact .refl s

/-- When something has come, it is the connection that goes on. The phase, the item and the
documents stay. -/
theorem moves_resume (s : Session) : Moves s s.resume := by
  unfold resume
  split
  · exact moves_continueHandshake _ _
  · exact moves_continueClose _ _
  · exact moves_continueStop _
  · exact .refl s

/-- When time is over, it is the connection that goes on. The phase, the item and the documents
stay. -/
theorem moves_expire (s : Session) : Moves s s.expire := by
  unfold expire
  split
  · exact moves_continueHandshake _ _
  · exact moves_continueClose _ _
  · exact ⟨_, _, _, _, rfl⟩
  · exact .refl s

/-- Letting the connection go changes stage and connection. The rest has been set by the stop
before. -/
theorem moves_release (s : Session) : Moves s s.release := by
  unfold release
  split
  · exact ⟨_, _, _, _, rfl⟩
  · exact ⟨_, _, _, _, rfl⟩
  · exact Moves.trans ⟨_, _, _, _, rfl⟩ (moves_continueClose _ _)
  · exact .refl s

/-- A start tracks nothing. -/
theorem documents_start (s : Session) : (s.start.toOption.getD s).documents = s.documents := by
  unfold start
  split <;> rfl

/-- What happens on the connection by itself tracks nothing. Which documents are tracked is up to
the owner. -/
theorem documents_ambient (s : Session) (e : Rpc.Event Handler) :
    (s.ambient e).documents = s.documents := by
  cases hconnection : s.connection with
  | none => rw [ambient, hconnection]
  | some c =>
    obtain ⟨phase, indicator, relayed, heq, -⟩ := ambient_eq hconnection e
    rw [heq]

/-- The first stop forgets all documents, and another one changes nothing. -/
theorem documents_stop (s : Session) : s.stop.documents = s.documents ∨ s.stop.documents = [] := by
  unfold stop
  split
  · exact .inl rfl
  · exact .inr (moves_release _).documents

/-- What asking to open a document makes of a session: nothing, if the document is not
taken or cannot be told; else the document is tracked, and the server told if it can be. -/
inductive Opening (s : Session) (d : Document) : Session → Prop where
  | same : Opening s d s
  | deferred (new : s.document? d.uri = none) (valid : Uri.isReference d.uri.toList = true)
      (held : s.heldClient? = none) :
      Opening s d { s with documents := insert d s.documents }
  | told {client after : LanguageServer.Client Handler} (new : s.document? d.uri = none)
      (valid : Uri.isReference d.uri.toList = true) (held : s.heldClient? = some client)
      (sent : client.openDocument d = .ok after) :
      Opening s d { s.withClient after with documents := insert d s.documents }

/-- What `openDocument` comes to, for each way through it. From here on nobody looks into that
function again. -/
theorem opening (s : Session) (d : Document) : Opening s d (s.take (.openDocument d)) := by
  show Opening s d (((s.openDocument d).toOption.map Prod.snd).getD s)
  unfold openDocument
  split
  · exact .same
  split
  · exact .same
  split
  · exact .same
  rename_i huri
  split
  · exact .same
  rename_i htracks
  have hnew : s.document? d.uri = none := tracks_eq_false.mp (Bool.eq_false_iff.mpr htracks)
  have hvalid : Uri.isReference d.uri.toList = true := Decidable.not_not.mp huri
  split
  · rename_i hheld
    exact .deferred hnew hvalid hheld
  · rename_i client hheld
    -- The server is told first. If that fails, the document is not tracked.
    cases hsent : client.openDocument d with
    | error e => exact .same
    | ok after => exact .told hnew hvalid hheld hsent

/-- What asking to close a document makes of a session: nothing, if it is not tracked; else
it is not tracked any more, and the server is told if it can be. -/
inductive Closing (s : Session) (uri : String) : Session → Prop where
  | same (untracked : s.document? uri = none) : Closing s uri s
  | deferred (tracked : s.document? uri ≠ none) (held : s.heldClient? = none) :
      Closing s uri { s with documents := s.documents.filter fun d => d.uri != uri }
  | told {client after : LanguageServer.Client Handler} (tracked : s.document? uri ≠ none)
      (held : s.heldClient? = some client) (sent : client.closeDocument uri = .ok after) :
      Closing s uri
        { s.withClient after with documents := s.documents.filter fun d => d.uri != uri }
  | lost {client : LanguageServer.Client Handler} {e : LanguageServer.Failure}
      (tracked : s.document? uri ≠ none) (held : s.heldClient? = some client)
      (failed : client.closeDocument uri = .error e)
      (answer : (s.closeDocument uri).1 = .error (.languageServer e)) :
      Closing s uri { s with documents := s.documents.filter fun d => d.uri != uri }

/-- What `closeDocument` comes to, for each way through it. Proofs about closing take their cases
from this and do not open the definition. -/
theorem closing (s : Session) (uri : String) : Closing s uri (s.take (.closeDocument uri)) := by
  show Closing s uri (s.closeDocument uri).2
  by_cases htracks : s.tracks uri = true
  · have htracked : s.document? uri ≠ none := fun hnone =>
      absurd (tracks_eq_false.mpr hnone) (Bool.not_eq_false _ ▸ htracks)
    cases hheld : s.heldClient? with
    | none =>
      -- The document is forgotten, and there is nobody to tell.
      have hclose : s.closeDocument uri =
          (.ok true, { s with documents := s.documents.filter fun d => d.uri != uri }) := by
        have hstill : heldClient? { s with documents := s.documents.filter fun d => d.uri != uri } =
            none := hheld
        simp only [closeDocument, htracks, not_true, if_false, hstill]
      rw [hclose]
      exact .deferred htracked hheld
    | some client =>
      have hstill : heldClient? { s with documents := s.documents.filter fun d => d.uri != uri } =
          some client := hheld
      -- The document is taken out before the server is told, so a close that fails is lost.
      cases hsent : client.closeDocument uri with
      | ok after =>
        have hclose : s.closeDocument uri = (.ok true,
            { s.withClient after with documents := s.documents.filter fun d => d.uri != uri }) := by
          simp only [closeDocument, htracks, not_true, if_false, hstill, hsent]
          rfl
        rw [hclose]
        exact .told htracked hheld hsent
      | error e =>
        have hclose : s.closeDocument uri = (.error (.languageServer e),
            { s with documents := s.documents.filter fun d => d.uri != uri }) := by
          simp only [closeDocument, htracks, not_true, if_false, hstill, hsent]
        have hlost := Closing.lost (s := s) htracked hheld hsent (by rw [hclose])
        rw [hclose]
        exact hlost
  · have hclose : s.closeDocument uri = (.ok false, s) := if_pos htracks
    rw [hclose]
    exact .same (tracks_eq_false.mp (Bool.eq_false_iff.mpr htracks))

/-- What an event does to the documents of a session: an opening adds one, a closing takes one out,
a stop forgets all, and every other event leaves them. -/
theorem documents_step (s : Session) (e : Event) :
    (s.step e).documents = s.documents ∨
    (∃ d, e = .openDocument d ∧ s.document? d.uri = none ∧
      (s.step e).documents = insert d s.documents) ∨
    (∃ uri, e = .closeDocument uri ∧
      (s.step e).documents = s.documents.filter fun d => d.uri != uri) ∨
    (s.step e).documents = [] := by
  unfold step
  split
  · exact .inl rfl
  cases e with
  | start => exact .inl (documents_start s)
  | openDocument d =>
    -- Whether the server is told now or after the handshake, the document is tracked from now on.
    have hopening := opening s d
    generalize s.take (.openDocument d) = after at hopening ⊢
    cases hopening with
    | same => exact .inl rfl
    | deferred hnew => exact .inr (.inl ⟨d, rfl, hnew, rfl⟩)
    | told hnew => exact .inr (.inl ⟨d, rfl, hnew, rfl⟩)
  | closeDocument uri =>
    -- It is no longer tracked even if the server could not be told.
    have hclosing := closing s uri
    generalize s.take (.closeDocument uri) = after at hclosing ⊢
    cases hclosing with
    | same => exact .inl rfl
    | deferred => exact .inr (.inr (.inl ⟨uri, rfl, rfl⟩))
    | told => exact .inr (.inr (.inl ⟨uri, rfl, rfl⟩))
    | lost => exact .inr (.inr (.inl ⟨uri, rfl, rfl⟩))
  | stop =>
    rcases documents_stop s with hsame | hnone
    · exact .inl hsame
    · exact .inr (.inr (.inr hnone))
  -- What goes on by itself concerns the connection.
  | dialed refusal => exact .inl (moves_dialed s refusal).documents
  | spawned verdict => exact .inl (moves_spawned s verdict).documents
  | resume => exact .inl (moves_resume s).documents
  | expire => exact .inl (moves_expire s).documents
  | ambient e =>
    refine .inl ?_
    show (if e.isAmbient then s.ambient e else s).documents = s.documents
    split
    · exact documents_ambient s e
    · rfl
  | child e =>
    refine .inl ?_
    show (if e.isAmbient then s.child e else s).documents = s.documents
    split <;> rfl

/-! ### Runs -/

/-- What an event does to the document of one URI: nothing, or it opens one, or afterwards there is
none. -/
theorem document?_step (s : Session) (e : Event) (uri : String) :
    (s.step e).document? uri = s.document? uri ∨
    (∃ d, e = .openDocument d ∧ d.uri = uri ∧ s.document? uri = none ∧
      (s.step e).document? uri = some d) ∨
    (s.step e).document? uri = none := by
  unfold document?
  rcases documents_step s e with hsame | ⟨d, rfl, hnew, hopened⟩ | ⟨closed, rfl, hclosed⟩ | hnone
  · exact .inl (by rw [hsame])
  · rw [hopened, findUri_insert hnew]
    -- It is this document that is opened, or another one.
    by_cases huri : d.uri = uri
    · rw [if_pos huri]
      exact .inr (.inl ⟨d, rfl, huri, huri ▸ hnew, rfl⟩)
    · exact .inl (if_neg huri)
  · rw [hclosed, findUri_without]
    by_cases huri : closed = uri
    · exact .inr (.inr (if_pos huri))
    · exact .inl (if_neg huri)
  · exact .inr (.inr (by rw [hnone]; rfl))

/-- A run goes on from the state in which its first part ended. -/
theorem run_append (s : Session) (before after : List Event) :
    s.run (before ++ after) = (s.run before).run after := List.foldl_append

/-- A run with one event more is a step after it. -/
theorem run_concat (s : Session) (events : List Event) (e : Event) :
    s.run (events ++ [e]) = (s.run events).step e := run_append s events [e]

/-- A session after a run. -/
def ran (config : Config) (processId : Nat) (events : List Event) : Session :=
  ({ config, processId } : Session).run events

/-- The last event of the run of a new session is a step from where the others have led. -/
theorem ran_concat (config : Config) (processId : Nat) (events : List Event) (e : Event) :
    ran config processId (events ++ [e]) = (ran config processId events).step e :=
  run_concat _ _ _

/-- A document that is tracked was given by the event that opened it, at a time when its URI was not
tracked, and it has been tracked ever since. By induction on the run, from its end: the document was
there before the last event, or that event has opened it. -/
theorem exists_openDocument {s : Session} (hs : s.documents = []) {events : List Event}
    {uri : String} {d : Document} (h : (s.run events).document? uri = some d) :
    d.uri = uri ∧ ∃ before after, events = before ++ .openDocument d :: after ∧
      (s.run before).document? uri = none ∧
      ∀ middle rest, after = middle ++ rest →
        (s.run (before ++ .openDocument d :: middle)).document? uri = some d := by
  induction events using List.reverseRecOn with
  | nil =>
    rw [show s.run [] = s from rfl, document?, hs] at h
    exact nomatch h
  | append_singleton events e ih =>
    have hstep := h
    rw [run_concat] at hstep
    rcases document?_step (s.run events) e uri with hsame | ⟨d', rfl, huri, hnew, hopened⟩ | hnone
    · -- The document was there before: its event is an earlier one.
      obtain ⟨huri, before, after, rfl, hnew, hkept⟩ := ih (hsame ▸ hstep)
      refine ⟨huri, before, after ++ [e], by rw [List.append_assoc, List.cons_append], hnew, ?_⟩
      intro middle rest hsplit
      -- Either the last step is among those considered, or they all were before it.
      rcases List.eq_nil_or_concat rest with rfl | ⟨front, last, rfl⟩
      · rw [List.append_nil] at hsplit
        rw [← hsplit, ← List.cons_append, ← List.append_assoc]
        exact h
      · rw [List.concat_eq_append, ← List.append_assoc] at hsplit
        exact hkept middle front (List.append_inj_left' hsplit rfl)
    · -- The last step has opened it.
      obtain rfl : d' = d := Option.some.inj (hopened.symm.trans hstep)
      refine ⟨huri, events, [], rfl, hnew, fun middle rest hsplit => ?_⟩
      obtain ⟨rfl, rfl⟩ := List.append_eq_nil_iff.mp hsplit.symm
      exact h
    · exact nomatch hnone.symm.trans hstep

end LanguageClient.Session
