import LanguageClient.Proofs.Session.Telling

/-!
# `LanguageClient.Proofs.Session.Mirror`: the server's view of the documents

What a server has been told of documents is what the session tracks: exactly that while
the session holds its connection, and nothing at all before (`Mirrors`). Each step keeps
this, by what `Telling` says of it, so it holds of a run without a stop in which no close is
lost (`mirrors_run`).

`mirrored` puts together what follows from this for one URI, and for the document that the
last `didOpen` carries.

A document that cannot be told is not tracked, so a `didOpen` that fails does no harm. A
`didClose` that fails does: the document is not tracked any more, but the server keeps it
open. Hence `LosesClose` in the hypothesis.
-/

set_option autoImplicit false

namespace LanguageClient.Session

open LanguageServer

/-- What the messages of a session say of documents, in order. -/
def marks (s : Session) : List Mark := s.messages.filterMap mark?

/-! ### The invariant -/

/-- The server knows of the documents that the session tracks, once it is told of any. -/
structure Mirrors (s : Session) : Prop where
  linked : Linked s
  quiet : s.stage ≠ .held → Quiet s.messages
  reflects : s.stage = .held → Reflects s.messages s.document?

/-- A new session tracks nothing and has said nothing. -/
theorem mirrors_fresh (config : Config) (processId : Nat) :
    Mirrors ({ config, processId } : Session) where
  linked := linked_fresh config processId
  quiet _ := nofun
  reflects := nofun

/-- What is tracked depends on the documents alone. -/
theorem document?_congr {s after : Session} (h : after.documents = s.documents) :
    after.document? = s.document? := by
  funext uri
  rw [document?, h, document?]

/-- A document that is added is tracked under its URI, and all others as before. -/
theorem document?_insert {s after : Session} {d : Document} (hnew : s.document? d.uri = none)
    (h : after.documents = insert d s.documents) (uri : String) :
    after.document? uri = if d.uri = uri then some d else s.document? uri := by
  rw [document?, h]
  exact findUri_insert hnew uri

/-- A URI that is taken out is not tracked any more, and all others as before. -/
theorem document?_without {s after : Session} {closed : String}
    (h : after.documents = s.documents.filter fun d => d.uri != closed) (uri : String) :
    after.document? uri = if closed = uri then none else s.document? uri := by
  rw [document?, h]
  exact findUri_without s.documents closed uri

/-- What a step tells the server is what it changes in the documents, so the two views stay the
same. The cases are those of `Telling`: nothing is said, all documents are announced at the end of
the handshake, one is opened, or one is closed. -/
theorem Mirrors.of_telling {s after : Session} {e : Event} (h : Mirrors s)
    (hlinked : Linked after) (htelling : Telling s e after) : Mirrors after := by
  cases htelling with
  | quietly more quiet documents messages stage =>
    -- Nothing is said of documents and none is changed.
    refine ⟨hlinked, fun hstage => ?_, fun hstage => ?_⟩
    · rw [messages]
      exact (h.quiet fun hheld => hstage (stage.mpr hheld)).append quiet
    · rw [messages, document?_congr documents]
      exact (h.reflects (stage.mp hstage)).append_quiet quiet
  | announcing more quiet documents messages before stage =>
    refine ⟨hlinked, fun hstage => absurd stage hstage, fun _ => ?_⟩
    -- Nothing has been said so far, so each document is new to the server.
    have hannounced := ((h.quiet before).append quiet).reflects.append_documents
      h.linked.distinct fun _ _ => rfl
    simp only [Option.or_none] at hannounced
    rw [messages, document?_congr documents]
    exact hannounced
  | opening d event new valid documents messages stage =>
    -- While the connection is not held the document is only remembered. Otherwise it is told, and
    -- it is new to the server because it was new to the session.
    refine ⟨hlinked, fun hstage => ?_, fun hstage => ?_⟩
    · rw [stage] at hstage
      rw [messages, if_neg hstage, List.append_nil]
      exact h.quiet hstage
    · rw [stage] at hstage
      rw [messages, if_pos hstage, funext (document?_insert new documents)]
      exact (h.reflects hstage).append_didOpen new
  | closing uri event tracked documents messages stage =>
    -- Likewise: the server knows the document that is closed because the session tracked it.
    refine ⟨hlinked, fun hstage => ?_, fun hstage => ?_⟩
    · rw [stage] at hstage
      rw [messages, if_neg hstage, List.append_nil]
      exact h.quiet hstage
    · rw [stage] at hstage
      rw [messages, if_pos hstage, funext (document?_without documents)]
      exact (h.reflects hstage).append_didClose tracked

/-- A URI is not tracked, and nothing has been said of it. -/
structure Untouched (uri : String) (s : Session) : Prop where
  untracked : s.document? uri = none
  unsaid : ∀ m ∈ s.marks, m.uri ≠ uri

/-- Where nothing has been said of documents, a URI that is not tracked is untouched. -/
theorem untouched_of_quiet {uri : String} {s : Session} (h : Quiet s.messages)
    (huntracked : s.document? uri = none) : Untouched uri s := by
  refine ⟨huntracked, fun m hm => ?_⟩
  rw [marks, h.marks] at hm
  exact absurd hm List.not_mem_nil

/-- There is no message about a URI that is untouched. -/
theorem Untouched.marksOf_eq_nil {uri : String} {s : Session} (h : Untouched uri s) :
    marksOf uri s.marks = [] := by
  refine List.filter_eq_nil_iff.mpr fun m hm => ?_
  rw [decide_eq_true_iff]
  exact h.unsaid m hm

/-- A URI stays untouched for as long as it is not tracked. A step says something only of documents
that are tracked before or after it. -/
theorem Untouched.of_telling {uri : String} {s after : Session} {e : Event}
    (h : Untouched uri s) (htelling : Telling s e after) (huntracked : after.document? uri = none) :
    Untouched uri after := by
  have add : ∀ more, after.messages = s.messages ++ more →
      (∀ m ∈ more.filterMap mark?, m.uri ≠ uri) → Untouched uri after := by
    refine fun more hmessages hmore => ⟨huntracked, fun m hm => ?_⟩
    rw [marks, hmessages, List.filterMap_append] at hm
    exact (List.mem_append.mp hm).elim (h.unsaid m) (hmore m)
  cases htelling with
  | quietly more quiet documents messages =>
    refine add more messages fun m hm => ?_
    rw [quiet.marks] at hm
    exact nomatch hm
  | announcing more quiet documents messages =>
    -- What is announced are the documents that are tracked, and this URI is not among them.
    rw [List.append_assoc] at messages
    refine add _ messages fun m hm => ?_
    rw [List.filterMap_append, quiet.marks, List.nil_append, marks_didOpen] at hm
    obtain ⟨d, hd, rfl⟩ := List.mem_map.mp hm
    exact findUri_eq_none.mp h.untracked d hd
  | opening d event new valid documents messages =>
    refine add _ messages fun m hm => ?_
    -- The document that is opened is tracked afterwards, so it has another URI.
    have hother : d.uri ≠ uri := fun huri => by
      rw [document?_insert new documents, if_pos huri] at huntracked
      exact nomatch huntracked
    split at hm
    · rw [List.filterMap_cons_some (mark?_didOpen d)] at hm
      rw [List.mem_singleton.mp hm]
      exact hother
    · exact nomatch hm
  | closing closed event tracked documents messages =>
    -- What is closed was tracked, so it is another URI.
    refine add _ messages fun m hm => ?_
    split at hm
    · rw [List.filterMap_cons_some (mark?_didClose closed)] at hm
      rw [List.mem_singleton.mp hm]
      rintro rfl
      exact tracked h.untracked
    · exact nomatch hm

/-! ### Runs -/

/-- A run without a stop in which no close is lost. -/
def Unbroken (s : Session) : List Event → Prop
  | [] => True
  | e :: events => e ≠ .stop ∧ ¬ s.LosesClose e ∧ Unbroken (s.step e) events

/-- Whether a close is lost can be computed. With the two instances below, the conditions on a given
run are decided by evaluation. -/
instance decidableLosesClose (s : Session) (e : Event) : Decidable (s.LosesClose e) :=
  match e with
  | .closeDocument uri =>
    inferInstanceAs (Decidable
      ((s.closeDocument uri).1 = .error (.languageServer (.call .disconnected))))
  | .start | .openDocument _ | .stop | .dialed _ | .spawned _ => isFalse id
  | .resume | .expire | .ambient _ | .child _ => isFalse id

instance decidableEqStop (e : Event) : Decidable (e = .stop) :=
  match e with
  | .stop => isTrue rfl
  | .start | .openDocument _ | .closeDocument _ | .dialed _ | .spawned _ => isFalse nofun
  | .resume | .expire | .ambient _ | .child _ => isFalse nofun

instance decidableUnbroken : (s : Session) → (events : List Event) → Decidable (Unbroken s events)
  | _, [] => isTrue trivial
  | s, e :: events =>
    have := decidableUnbroken (s.step e) events
    inferInstanceAs (Decidable (e ≠ .stop ∧ ¬ s.LosesClose e ∧ Unbroken (s.step e) events))

/-- A run is unbroken if its two parts are. With this a clause about the middle of a run can use the
invariant at that moment. -/
theorem unbroken_append {s : Session} {before after : List Event} :
    Unbroken s (before ++ after) ↔ Unbroken s before ∧ Unbroken (s.run before) after := by
  induction before generalizing s with
  | nil => exact ⟨fun h => ⟨trivial, h⟩, And.right⟩
  | cons e before ih =>
    show _ ∧ _ ∧ Unbroken (s.step e) (before ++ after) ↔ (_ ∧ _ ∧ Unbroken (s.step e) before) ∧ _
    rw [ih, and_assoc, and_assoc]
    rfl

/-- In a run without a stop, as long as no close is lost, the server's view stays that of the
session. -/
theorem mirrors_run {s : Session} (h : Mirrors s) {events : List Event}
    (hunbroken : Unbroken s events) : Mirrors (s.run events) := by
  induction events generalizing s with
  | nil => exact h
  | cons e events ih =>
    obtain ⟨hstop, hsent, hrest⟩ := hunbroken
    obtain ⟨hlinked, htelling⟩ := h.linked.step hstop hsent
    exact ih (h.of_telling hlinked htelling) hrest

/-- A URI that is not tracked at any moment of such a run stays untouched. By induction on the
events: the first one leaves it so, and after it the hypothesis holds of what remains of the run. -/
theorem untouched_run {s : Session} (hlinked : Linked s) {uri : String} (h : Untouched uri s)
    {events : List Event} (hunbroken : Unbroken s events)
    (huntracked : ∀ before after, events = before ++ after → (s.run before).document? uri = none) :
    Untouched uri (s.run events) := by
  induction events generalizing s with
  | nil => exact h
  | cons e events ih =>
    obtain ⟨hstop, hsent, hrest⟩ := hunbroken
    obtain ⟨hlinked, htelling⟩ := hlinked.step hstop hsent
    refine ih hlinked (h.of_telling htelling (huntracked [e] events rfl)) hrest ?_
    rintro before after rfl
    exact huntracked (e :: before) after rfl

/-- The messages about documents after a run, and the documents that are tracked. -/
structure Mirrored (config : Config) (processId : Nat) (events : List Event) : Prop where
  /-- Every message about a document is a whole one. -/
  readable : ∀ m ∈ (ran config processId events).messages, isAboutDocument m = true →
    (mark? m).isSome = true
  /-- Openings and closings of a URI take turns, and the first is an opening. -/
  turn : ∀ uri i m, (marksOf uri (ran config processId events).marks)[i]? = some m →
    m.isOpened = (i % 2 == 0)
  /-- Once the connection is held, a URI is tracked exactly if the last message about it is
  an opening. -/
  mirror : (ran config processId events).stage = .held → ∀ uri,
    (ran config processId events).tracks uri = true ↔
      ∃ d, (marksOf uri (ran config processId events).marks).getLast? = some (.opened d)
  /-- That opening carries the document of the event by which the URI came to be tracked, and
  it has been tracked since. -/
  content : (ran config processId events).stage = .held → ∀ uri d,
    (marksOf uri (ran config processId events).marks).getLast? = some (.opened d) →
    d.uri = uri ∧ ∃ before after, events = before ++ .openDocument d :: after ∧
      (ran config processId before).tracks uri = false ∧
      ∀ middle rest, after = middle ++ rest →
        (ran config processId (before ++ .openDocument d :: middle)).document? uri = some d
  /-- There is no message about a URI that has not been tracked since some time before the
  connection was held, whatever was opened and closed until then. -/
  silent : ∀ uri before after, events = before ++ after →
    (ran config processId before).stage ≠ .held →
    (∀ middle rest, after = middle ++ rest →
      (ran config processId (before ++ middle)).tracks uri = false) →
    marksOf uri (ran config processId events).marks = []
  /-- A document that is rejected changes nothing, at any time. -/
  rejected : ∀ (s : Session) d, s.Rejects d → s.step (.openDocument d) = s

/-- At every stage the messages reflect some view of the documents: that of the session once the
connection is held, and before that the empty one. -/
theorem Mirrors.reflected {s : Session} (h : Mirrors s) : ∃ known, Reflects s.messages known ∧
    (s.stage = .held → known = s.document?) := by
  by_cases hstage : s.stage = .held
  · exact ⟨_, h.reflects hstage, fun _ => rfl⟩
  · exact ⟨_, (h.quiet hstage).reflects, fun hheld => absurd hheld hstage⟩

/-- In a run without a stop, as long as no close is lost, the server's view of the documents is the
session's. The hypothesis is needed for closes only: an opening that cannot be sent leaves the
document untracked, so it does no harm. -/
theorem mirrored {config : Config} {processId : Nat} {events : List Event}
    (h : Unbroken ({ config, processId } : Session) events) : Mirrored config processId events := by
  have hmirrors : Mirrors (ran config processId events) :=
    mirrors_run (mirrors_fresh config processId) h
  obtain ⟨known, hreflects, hknown⟩ := hmirrors.reflected
  -- That marks take turns follows from the view alone, without the session.
  have hturns : ∀ uri, TakesTurns (marksOf uri (ran config processId events).marks) (known uri) :=
    fun uri => of_view (hreflects.view uri)
  refine
    { readable := hreflects.readable
      turn := fun uri => (hturns uri).turn
      mirror := ?_, content := ?_, silent := ?_
      rejected := fun s d => step_openDocument_of_rejects }
  · intro hheld uri
    have hview := (hturns uri).getLast?_eq
    rw [hknown hheld] at hview
    rw [tracks_eq, Option.isSome_iff_exists]
    exact exists_congr fun d => (hview d).symm
  · -- The document that the last opening carries is the one that is tracked, and it has been so
    -- since some event opened it.
    intro hheld uri d hlast
    have htracked : (ran config processId events).document? uri = some d := by
      rw [← hknown hheld]
      exact ((hturns uri).getLast?_eq d).mp hlast
    obtain ⟨huri, before, after, hevents, hnew, hkept⟩ := exists_openDocument rfl htracked
    exact ⟨huri, before, after, hevents, tracks_eq_false.mpr hnew, hkept⟩
  · -- Nothing is said of a document that is not tracked all the while. Its marks are followed from
    -- where the session stood still.
    rintro uri before after rfl hstage huntracked
    obtain ⟨hbefore, hafter⟩ := unbroken_append.mp h
    have hmirrors := mirrors_run (mirrors_fresh config processId) hbefore
    have hruns : ∀ middle rest, after = middle ++ rest →
        ((ran config processId before).run middle).document? uri = none := by
      intro middle rest hsplit
      have hmiddle := huntracked middle rest hsplit
      rw [ran, run_append] at hmiddle
      exact tracks_eq_false.mp hmiddle
    have hstart : Untouched uri (ran config processId before) :=
      untouched_of_quiet (hmirrors.quiet hstage) (hruns [] after rfl)
    have hend := untouched_run hmirrors.linked hstart hafter hruns
    rw [ran, run_append]
    exact hend.marksOf_eq_nil

/-- A document that is opened before the handshake, and again after it was closed. -/
def reopening (d later : Document) : List Event :=
  [.start, .openDocument d, .dialed none, .ambient (.deliver (Text.encode (Framing.frame
      (Rpc.Message.response
        (.success (.nat 1) (.object [("capabilities", .object [])]))).payload))),
    .ambient .receiveNext, .resume, .closeDocument d.uri, .openDocument later]

/-- The connection is held when the document is opened again. -/
theorem mirrored_of_reopening :
    (ran .default 0
        (reopening ⟨"file:///a.bf", "bf", 1, "+"⟩ ⟨"file:///a.bf", "bf", 2, "-"⟩)).stage = .held ∧
      Mirrored .default 0
        (reopening ⟨"file:///a.bf", "bf", 1, "+"⟩ ⟨"file:///a.bf", "bf", 2, "-"⟩) :=
  ⟨by decide +kernel, mirrored (by decide +kernel)⟩

end LanguageClient.Session
