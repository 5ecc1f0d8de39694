import LanguageClient.LanguageServer.Client
import LanguageClient.Proofs.Rpc.Message
import Mathlib.Data.List.Induction

/-!
# `LanguageClient.Proofs.LanguageServer.Documents`: what a server knows of documents

A server learns of documents by `didOpen` and `didClose` alone. A `Mark` is what it reads
off one of the two, and `view` is what it then knows of one URI: the document that is open,
if one is. A second `didOpen`, or a `didClose` without one, leaves it without a view.

* `mark?_didOpen` / `mark?_didClose`: what a client writes is read back whole.
* `view_concat`: one more mark.
* `of_view`: with a view, the marks of a URI take turns, and the last one says what is
  open.
-/

set_option autoImplicit false

namespace LanguageClient.LanguageServer

open Client

/-! ### Reading messages -/

/-- What a server is told of a document. -/
inductive Mark where
  | opened (d : Document)
  | closed (uri : String)

namespace Mark

/-- The URI of the document that a mark is about. -/
def uri : Mark → String
  | opened d => d.uri
  | closed uri => uri

/-- Whether a mark opens its document. -/
def isOpened : Mark → Bool
  | opened _ => true
  | closed _ => false

end Mark

/-- The document that the parameters of `didOpen` carry. -/
def openedDocument? (params : Json) : Option Document := do
  let item ← params.get? "textDocument"
  let uri ← (item.get? "uri").bind Rpc.string?
  let language ← (item.get? "languageId").bind Rpc.string?
  let version ← (item.get? "version").bind Rpc.int32?
  let text ← (item.get? "text").bind Rpc.string?
  return { uri, language, version, text }

/-- The URI that the parameters of `didClose` carry. -/
def closedUri? (params : Json) : Option String := do
  let item ← params.get? "textDocument"
  (item.get? "uri").bind Rpc.string?

/-- What a message says of a document. -/
def mark? : Rpc.Message → Option Mark
  | .notification n =>
    if n.method = "textDocument/didOpen" then (n.params.bind openedDocument?).map .opened
    else if n.method = "textDocument/didClose" then (n.params.bind closedUri?).map .closed
    else none
  | _ => none

/-- Whether a message is about a document, readable or not. -/
def isAboutDocument : Rpc.Message → Bool
  | .notification n => n.method == "textDocument/didOpen" || n.method == "textDocument/didClose"
  | _ => false

/-- A message about no document leaves no mark. -/
theorem mark?_of_not_about {m : Rpc.Message} (h : isAboutDocument m = false) : mark? m = none := by
  cases m with
  | request r => rfl
  | response r => rfl
  | notification n =>
    simp only [isAboutDocument, Bool.or_eq_false_iff, beq_eq_false_iff_ne] at h
    simp only [mark?, if_neg h.1, if_neg h.2]

/-- The notification that a document was opened. -/
def didOpen (d : Document) : Rpc.Message :=
  .notification { method := "textDocument/didOpen", params := some (didOpenParams d) }

/-- The notification that a document was closed. -/
def didClose (uri : String) : Rpc.Message :=
  .notification { method := "textDocument/didClose", params := some (didCloseParams uri) }

/-- What a client writes for an opened document is read back whole: the URI, the language, the
version and the text. -/
theorem mark?_didOpen (d : Document) : mark? (didOpen d) = some (.opened d) := by
  have hread : openedDocument? (didOpenParams d) = some d := by
    show (do
      let version ← Rpc.int32? (.int d.version.toInt)
      return ({ uri := d.uri, language := d.language, version, text := d.text } : Document)) =
        some d
    rw [Rpc.int32?_int]
    rfl
  show (openedDocument? (didOpenParams d)).map Mark.opened = _
  rw [hread]
  rfl

/-- What a client writes for a closed document is read back: the URI. -/
theorem mark?_didClose (uri : String) : mark? (didClose uri) = some (.closed uri) := rfl

/-- A series of documents leaves their marks in order. -/
theorem marks_didOpen (documents : List Document) :
    (documents.map didOpen).filterMap mark? = documents.map .opened := by
  induction documents with
  | nil => rfl
  | cons d documents ih => rw [List.map_cons, List.filterMap_cons_some (mark?_didOpen d), ih]; rfl

/-! ### One URI -/

/-- What a mark makes of what a server knows of a URI; nothing, if it does not fit. -/
def serve (uri : String) (known : Option Document) (m : Mark) : Option (Option Document) :=
  if m.uri ≠ uri then some known
  else
    match known, m with
    | none, .opened d => some (some d)
    | some _, .closed _ => some none
    | _, _ => none

/-- What a server knows of a URI after some marks. -/
def view (uri : String) (marks : List Mark) : Option (Option Document) :=
  marks.foldlM (serve uri) none

/-- What is known after more marks starts from what was known before. -/
theorem view_append (uri : String) (before after : List Mark) :
    view uri (before ++ after) =
      (view uri before).bind fun known => after.foldlM (serve uri) known := List.foldlM_append

/-- One more mark changes what is known, unless it does not fit. -/
theorem view_concat (uri : String) (marks : List Mark) (m : Mark) :
    view uri (marks ++ [m]) = (view uri marks).bind fun known => serve uri known m := by
  rw [view_append]
  cases view uri marks with
  | none => rfl
  | some known =>
    show (serve uri known m).bind some = serve uri known m
    exact Option.bind_fun_some _

/-- A mark of another URI does not change what is known of this one. -/
theorem serve_of_ne {uri : String} {m : Mark} (h : m.uri ≠ uri) (known : Option Document) :
    serve uri known m = some known := if_pos h

/-- A mark of the URI fits in two ways: an opening where nothing is open, and a closing where
something is. A view exists only if each mark fitted when it came. -/
theorem serve_eq_some {uri : String} {known after : Option Document} {m : Mark}
    (h : serve uri known m = some after) (huri : m.uri = uri) :
    (known = none ∧ ∃ d, m = .opened d ∧ after = some d) ∨
      (known ≠ none ∧ m = .closed uri ∧ after = none) := by
  unfold serve at h
  -- The mark is for this URI, so it cannot be passed over. Of the four cases left two do not fit.
  rw [if_neg (by rw [huri]; exact fun hne => hne rfl)] at h
  cases known with
  | none =>
    cases m with
    | opened d => exact .inl ⟨rfl, d, rfl, (Option.some.inj h).symm⟩
    | closed u => exact nomatch h
  | some old =>
    cases m with
    | opened d => exact nomatch h
    | closed u =>
      obtain rfl : u = uri := huri
      exact .inr ⟨Option.some_ne_none old, rfl, (Option.some.inj h).symm⟩

/-- The marks of a URI. -/
def marksOf (uri : String) (marks : List Mark) : List Mark := marks.filter fun m => m.uri = uri

/-- The marks of a URI, with a view of it: they take turns and start with an opening, and
the document that is open is that of the last one. -/
structure TakesTurns (marks : List Mark) (known : Option Document) : Prop where
  turn : ∀ i m, marks[i]? = some m → m.isOpened = (i % 2 == 0)
  closed : known = none → marks.length % 2 = 0 ∧ ∀ d, marks.getLast? ≠ some (.opened d)
  opened : ∀ d, known = some d → marks.length % 2 = 1 ∧ marks.getLast? = some (.opened d)

/-- What is open can be read off the last mark. So a server needs no memory but that: it holds a
document exactly if that was the last thing said of its URI. -/
theorem TakesTurns.getLast?_eq {marks : List Mark} {known : Option Document}
    (h : TakesTurns marks known) (d : Document) :
    marks.getLast? = some (.opened d) ↔ known = some d := by
  refine ⟨fun hlast => ?_, fun hknown => (h.opened d hknown).2⟩
  cases hknown : known with
  | none => exact absurd hlast ((h.closed hknown).2 d)
  | some d' =>
    have hsame := (h.opened d' hknown).2.symm.trans hlast
    cases hsame
    rfl

/-- One more mark takes its turn behind the others. Marks open and close a document by turns, so
what it has to be depends on how many there were. -/
theorem turn_concat {marks : List Mark} {m : Mark}
    (h : ∀ i m, marks[i]? = some m → m.isOpened = (i % 2 == 0))
    (hm : m.isOpened = (marks.length % 2 == 0)) :
    ∀ i m', (marks ++ [m])[i]? = some m' → m'.isOpened = (i % 2 == 0) := by
  intro i m' hi
  rw [List.getElem?_append] at hi
  split at hi
  · exact h i m' hi
  · -- It is the last one, at the position that the others leave.
    rename_i hge
    have hlast := (List.getElem?_eq_some_iff.mp hi).1
    obtain rfl : i = marks.length := by
      rw [List.length_singleton] at hlast
      omega
    rw [Nat.sub_self] at hi
    obtain rfl : m = m' := Option.some.inj hi
    exact hm

/-- With a view, the marks of a URI take turns, and the last one says what is open. By induction on
the marks from their end, since the view is what is known at the end. -/
theorem of_view {uri : String} {marks : List Mark} {known : Option Document}
    (h : view uri marks = some known) : TakesTurns (marksOf uri marks) known := by
  induction marks using List.reverseRecOn generalizing known with
  | nil =>
    obtain rfl : none = known := Option.some.inj h
    exact ⟨nofun, fun _ => ⟨rfl, nofun⟩, nofun⟩
  | append_singleton marks m ih =>
    rw [view_concat] at h
    obtain ⟨before, hbefore, hserve⟩ := Option.bind_eq_some_iff.mp h
    obtain ⟨hturn, hclosed, hopened⟩ := ih hbefore
    by_cases huri : m.uri = uri
    · have hmarks : marksOf uri (marks ++ [m]) = marksOf uri marks ++ [m] := by
        simp only [marksOf, List.filter_append, List.filter_cons, huri, decide_true, if_true,
          List.filter_nil]
      have hlast : (marksOf uri marks ++ [m]).getLast? = some m := List.getLast?_concat
      have hlength : (marksOf uri marks ++ [m]).length = (marksOf uri marks).length + 1 :=
        List.length_append
      rw [hmarks]
      -- An opening comes after an even number of marks, a closing after an odd one.
      rcases serve_eq_some hserve huri with ⟨hnone, d, rfl, rfl⟩ | ⟨hsome, rfl, rfl⟩
      · obtain ⟨heven, -⟩ := hclosed hnone
        refine ⟨turn_concat hturn (by rw [heven]; rfl), nofun, ?_⟩
        rintro _ ⟨⟩
        exact ⟨by omega, hlast⟩
      · obtain ⟨d, rfl⟩ := Option.ne_none_iff_exists'.mp hsome
        obtain ⟨hodd, -⟩ := hopened d rfl
        refine ⟨turn_concat hturn (by rw [hodd]; rfl), fun _ => ⟨by omega, ?_⟩, nofun⟩
        intro d' hd'
        rw [hlast] at hd'
        exact nomatch hd'
    · -- A mark of another URI is filtered out, and leaves the view as it is.
      have hmarks : marksOf uri (marks ++ [m]) = marksOf uri marks := by
        simp only [marksOf, List.filter_append, List.filter_cons, huri, decide_false,
          Bool.false_eq_true, if_false, List.filter_nil, List.append_nil]
      rw [serve_of_ne huri] at hserve
      obtain rfl := Option.some.inj hserve
      rw [hmarks]
      exact ⟨hturn, hclosed, hopened⟩

/-! ### All URIs -/

/-- Some messages tell a server exactly what it should know of every URI. -/
structure Reflects (messages : List Rpc.Message) (known : String → Option Document) : Prop where
  readable : ∀ m ∈ messages, isAboutDocument m = true → (mark? m).isSome = true
  view : ∀ uri, view uri (messages.filterMap mark?) = some (known uri)

/-- Messages about no document. -/
def Quiet (messages : List Rpc.Message) : Prop := ∀ m ∈ messages, isAboutDocument m = false

/-- No messages are about no document. -/
theorem quiet_nil : Quiet [] := fun _ hm => absurd hm List.not_mem_nil

/-- Two series of such messages make one. -/
theorem Quiet.append {before after : List Rpc.Message} (hbefore : Quiet before)
    (hafter : Quiet after) : Quiet (before ++ after) := fun m hm =>
  (List.mem_append.mp hm).elim (hbefore m) (hafter m)

/-- Messages that are about no document leave no marks. -/
theorem Quiet.marks {messages : List Rpc.Message} (h : Quiet messages) :
    messages.filterMap mark? = [] :=
  List.filterMap_eq_nil_iff.mpr fun m hm => mark?_of_not_about (h m hm)

/-- Responses are about no document, so a server may be answered at any time. -/
theorem quiet_responses (responses : List Rpc.Response) :
    Quiet (responses.map Rpc.Message.response) := by
  intro m hm
  obtain ⟨r, -, rfl⟩ := List.mem_map.mp hm
  rfl

/-- After such messages a server knows of no document. -/
theorem Quiet.reflects {messages : List Rpc.Message} (h : Quiet messages) :
    Reflects messages fun _ => none := by
  refine ⟨fun m hm habout => ?_, fun uri => ?_⟩
  · rw [h m hm] at habout
    exact nomatch habout
  · rw [h.marks]
    rfl

/-- Messages that say nothing about documents change nothing of what the server knows. -/
theorem Reflects.append_quiet {messages more : List Rpc.Message}
    {known : String → Option Document} (h : Reflects messages known) (hmore : Quiet more) :
    Reflects (messages ++ more) known := by
  refine ⟨fun m hm habout => ?_, fun uri => ?_⟩
  · rcases List.mem_append.mp hm with hm | hm
    · exact h.readable m hm habout
    · rw [hmore m hm] at habout
      exact nomatch habout
  · rw [List.filterMap_append, hmore.marks, List.append_nil]
    exact h.view uri

/-- One more message that can be read. It has to fit for its own URI, and for the others it changes
nothing. -/
theorem Reflects.append_mark {messages : List Rpc.Message} {known after : String → Option Document}
    (h : Reflects messages known) {m : Rpc.Message} {mark : Mark} (hmark : mark? m = some mark)
    (hserve : ∀ uri, serve uri (known uri) mark = some (after uri)) :
    Reflects (messages ++ [m]) after := by
  refine ⟨fun m' hm' habout => ?_, fun uri => ?_⟩
  · rcases List.mem_append.mp hm' with hm' | hm'
    · exact h.readable m' hm' habout
    · rw [List.mem_singleton.mp hm', hmark]
      rfl
  · rw [List.filterMap_append, List.filterMap_cons_some hmark, List.filterMap_nil, view_concat,
      h.view uri]
    exact hserve uri

/-- A document is opened of which the server did not know; else it would be opened twice. It then
knows this one, with the text that it was sent, and of the others what it knew. -/
theorem Reflects.append_didOpen {messages : List Rpc.Message} {known : String → Option Document}
    (h : Reflects messages known) {d : Document} (hd : known d.uri = none) :
    Reflects (messages ++ [didOpen d]) fun uri => if d.uri = uri then some d else known uri := by
  refine h.append_mark (mark?_didOpen d) fun uri => ?_
  by_cases huri : d.uri = uri
  · subst huri
    rw [if_pos rfl, hd]
    exact if_neg fun hne => hne rfl
  · rw [if_neg huri]
    exact serve_of_ne (m := .opened d) huri _

/-- A document is closed of which the server did know; else it would be told of one that was never
opened. It knows nothing of its URI afterwards. -/
theorem Reflects.append_didClose {messages : List Rpc.Message} {known : String → Option Document}
    (h : Reflects messages known) {closed : String} (hclosed : known closed ≠ none) :
    Reflects (messages ++ [didClose closed]) fun uri =>
      if closed = uri then none else known uri := by
  refine h.append_mark (mark?_didClose closed) fun uri => ?_
  by_cases huri : closed = uri
  · subst huri
    obtain ⟨d, hd⟩ := Option.ne_none_iff_exists'.mp hclosed
    rw [if_pos rfl, hd]
    exact if_neg fun hne => hne rfl
  · rw [if_neg huri]
    exact serve_of_ne (m := .closed closed) huri _

/-- The document of a URI. -/
def findUri (documents : List Document) (uri : String) : Option Document :=
  documents.find? fun d => d.uri == uri

/-- A document is looked up in front, or else behind. -/
theorem findUri_cons (d : Document) (documents : List Document) (uri : String) :
    findUri (d :: documents) uri = if d.uri = uri then some d else findUri documents uri := by
  rw [findUri, List.find?_cons]
  by_cases huri : d.uri = uri
  · rw [if_pos huri, beq_iff_eq.mpr huri]
  · rw [if_neg huri, beq_eq_false_iff_ne.mpr huri]
    rfl

/-- None is found exactly if none has the URI. -/
theorem findUri_eq_none {documents : List Document} {uri : String} :
    findUri documents uri = none ↔ ∀ d ∈ documents, d.uri ≠ uri := by
  simp only [findUri, List.find?_eq_none, beq_iff_eq, ne_eq]

/-- What is found is one of the documents, and has the URI. -/
theorem mem_of_findUri {documents : List Document} {uri : String} {d : Document}
    (h : findUri documents uri = some d) : d ∈ documents ∧ d.uri = uri := by
  have huri := List.find?_some h
  exact ⟨List.mem_of_find?_eq_some h, beq_iff_eq.mp huri⟩

/-- Telling a server about documents of different URIs that it does not know. This is how the
documents that were deferred are told when a session is ready, and each must still be unknown when
its turn comes. -/
theorem Reflects.append_documents {messages : List Rpc.Message}
    {known : String → Option Document} (h : Reflects messages known) {documents : List Document}
    (hdistinct : (documents.map Document.uri).Nodup)
    (hnew : ∀ d ∈ documents, known d.uri = none) :
    Reflects (messages ++ documents.map didOpen) fun uri =>
      (findUri documents uri).or (known uri) := by
  induction documents generalizing messages known with
  | nil =>
    rw [List.map_nil, List.append_nil]
    exact h
  | cons d documents ih =>
    obtain ⟨hother, hdistinct⟩ := List.nodup_cons.mp hdistinct
    have hne : ∀ d' ∈ documents, d.uri ≠ d'.uri := fun d' hd' heq =>
      hother (heq ▸ List.mem_map_of_mem hd')
    have hrest := ih (h.append_didOpen (hnew d List.mem_cons_self)) hdistinct fun d' hd' => by
      rw [if_neg (hne d' hd')]
      exact hnew d' (List.mem_cons_of_mem d hd')
    -- To know of `d` first and then of the rest is to know of them all.
    have hsame : (fun uri => (findUri (d :: documents) uri).or (known uri)) = fun uri =>
        (findUri documents uri).or (if d.uri = uri then some d else known uri) := by
      funext uri
      rw [findUri_cons]
      by_cases huri : d.uri = uri
      · subst huri
        have hnone : findUri documents d.uri = none :=
          findUri_eq_none.mpr fun d' hd' heq => hne d' hd' heq.symm
        rw [if_pos rfl, if_pos rfl, hnone]
        rfl
      · rw [if_neg huri, if_neg huri]
    rw [List.map_cons, List.append_cons, hsame]
    exact hrest

end LanguageClient.LanguageServer
