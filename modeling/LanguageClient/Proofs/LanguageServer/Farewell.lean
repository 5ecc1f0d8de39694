import LanguageClient.Proofs.LanguageServer.Conduct
import LanguageClient.Proofs.Rpc.Outbound
import Mathlib.Logic.Relation

/-!
# `LanguageClient.Proofs.LanguageServer.Farewell`: what follows a farewell

An owner may ask a client for anything, in any order and any number of times. What the client
then says is still a conversation in turn (`InTurn`): requests to begin until one is answered,
documents, the request to shut down, and the word to exit. There is one exception. The client
knows only whether it is initialized at present, so that it takes a handshake again once it
has asked the server to shut down (`Client.Returns`), and then it greets a server that is on
its way out.

Whatever a step does is a handshake that begins, or none, and then a series of acts
(`acts_step`), each of which says one thing at most. An act keeps the conversation in turn
(`Mannered.act`), and so does a handshake that is not a return (`Mannered.begins`).

* `inTurn_run`: without a return, the conversation of a run is in turn.
* `astray_of_returns`: with one, it is not.
* `farewell_iff`: what both mean for the farewell and for the handshake of a run.
-/

set_option autoImplicit false

namespace LanguageClient

/-- Whether a request for a method is made. -/
def Rpc.Utterance.asksFor (method : String) : Rpc.Utterance → Bool
  | .request _ asked => asked == method
  | .notification _ => false

namespace LanguageServer

open Rpc (Utterance utterances)

variable {η : Type}

/-! ### Words in turn -/

/-- After the request to shut down comes nothing but the word to exit. -/
def EndsWithExit (said : List Utterance) : Prop :=
  said.Pairwise fun u v => u.asksFor "shutdown" = true → v = .notification "exit"

/-- After a handshake has come to its end, no other begins. -/
def ShakesOnce (said : List Utterance) : Prop :=
  said.Pairwise fun u v => u = .notification "initialized" → v.asksFor "initialize" = false

/-- A client that has shaken hands, at the first attempt or a later one, and has said something
about documents since. -/
def Spoken (said : List Utterance) : Prop :=
  ∃ attempts documents : List Utterance, (∀ u ∈ attempts, u.asksFor "initialize" = true) ∧
    (∀ u ∈ documents, u.isAboutDocument = true) ∧
    said = attempts ++ .notification "initialized" :: documents

/-- The two words of a farewell. -/
def farewell (id : Json) : List Utterance := [.request id "shutdown", .notification "exit"]

/-- A conversation that goes its course, as far as it comes. -/
def InTurn (said : List Utterance) : Prop :=
  ∃ talk id, Spoken talk ∧ said <+: talk ++ farewell id

variable {said : List Utterance}

/-- A request asks for one method only. -/
theorem asksFor_ne {u : Utterance} {method other : String} (h : u.asksFor method = true)
    (hne : method ≠ other) : u.asksFor other = false := by
  cases u with
  | notification => rfl
  | request id asked =>
    obtain rfl : asked = method := beq_iff_eq.mp h
    exact beq_eq_false_iff_ne.mpr hne

/-- A request is not about documents. -/
theorem asksFor_of_isAboutDocument {u : Utterance} (h : u.isAboutDocument = true)
    (method : String) : u.asksFor method = false := by
  cases u with
  | request => exact nomatch h
  | notification => rfl

/-- Nobody who talks has asked to leave. So the request to shut down, when it comes, is the first of
its kind. -/
theorem Spoken.stays (h : Spoken said) : ∀ u ∈ said, u.asksFor "shutdown" = false := by
  obtain ⟨attempts, documents, hattempts, hdocuments, rfl⟩ := h
  intro u hu
  rcases List.mem_append.mp hu with hu | hu
  · exact asksFor_ne (hattempts u hu) (by decide)
  · rcases List.mem_cons.mp hu with rfl | hu
    · rfl
    · exact asksFor_of_isAboutDocument (hdocuments u hu) _

/-- Who has spoken has ended the handshake. -/
theorem Spoken.initialized (h : Spoken said) : .notification "initialized" ∈ said := by
  obtain ⟨attempts, documents, -, -, rfl⟩ := h
  exact List.mem_append_right _ List.mem_cons_self

/-- A talk goes on with one more word about a document. -/
theorem Spoken.append (h : Spoken said) {u : Utterance} (hu : u.isAboutDocument = true) :
    Spoken (said ++ [u]) := by
  obtain ⟨attempts, documents, hattempts, hdocuments, rfl⟩ := h
  refine ⟨attempts, documents ++ [u], hattempts, fun v hv => ?_, ?_⟩
  · rcases List.mem_append.mp hv with hv | hv
    · exact hdocuments v hv
    · rw [List.mem_singleton.mp hv]
      exact hu
  · rw [List.append_assoc, List.cons_append]

/-- A conversation in turn has nothing but the word to exit behind the request to shut down. There
is no such request in the talk, and the farewell has it once. -/
theorem InTurn.endsWithExit (h : InTurn said) : EndsWithExit said := by
  obtain ⟨talk, id, htalk, hfirst⟩ := h
  refine List.Pairwise.sublist hfirst.sublist (List.pairwise_append.mpr ⟨?_, ?_, ?_⟩)
  · exact List.pairwise_of_forall_mem_list fun u hu _ _ hasks =>
      nomatch hasks.symm.trans (htalk.stays u hu)
  · exact List.pairwise_pair.mpr fun _ => rfl
  · exact fun u hu _ _ hasks => nomatch hasks.symm.trans (htalk.stays u hu)

/-- In such a conversation no handshake begins after one has come to its end. All attempts stand in
front of the word that ends it. -/
theorem InTurn.shakesOnce (h : InTurn said) : ShakesOnce said := by
  obtain ⟨_, id, ⟨attempts, documents, hattempts, hdocuments, rfl⟩, hfirst⟩ := h
  have hbegins : ∀ u ∈ attempts, u ≠ .notification "initialized" := by
    rintro u hu rfl
    exact nomatch hattempts _ hu
  -- Behind the word that ends the handshake nobody asks to begin.
  have hbehind : ∀ u ∈ documents ++ farewell id, u.asksFor "initialize" = false := by
    intro u hu
    rcases List.mem_append.mp hu with hu | hu
    · exact asksFor_of_isAboutDocument (hdocuments u hu) _
    · rcases List.mem_pair.mp hu with rfl | rfl <;> rfl
  refine List.Pairwise.sublist hfirst.sublist ?_
  rw [List.append_assoc, List.cons_append]
  refine List.pairwise_append.mpr ⟨?_, List.pairwise_cons.mpr ⟨?_, ?_⟩, ?_⟩
  · exact List.pairwise_of_forall_mem_list fun u hu _ _ heq => absurd heq (hbegins u hu)
  · exact fun v hv _ => hbehind v hv
  · exact List.pairwise_of_forall_mem_list fun _ _ v hv _ => hbehind v hv
  · exact fun u hu _ _ heq => absurd heq (hbegins u hu)

/-! ### Acts -/

variable {c after : Client η}

/-- What a client has said so far. -/
def Client.speech (c : Client η) : List Utterance := utterances c.rpc.accepted

/-- An event adds to what was said the words of the messages that it brings in. -/
theorem Client.speech_step (c : Client η) (e : Rpc.Event η) :
    utterances (c.rpc.step e).accepted = c.speech ++ utterances (c.rpc.accepts e) := by
  rw [(Rpc.record_step c.rpc e).1, Rpc.utterances_append]
  rfl

/-- A notification is taken in while messages are moved. -/
theorem Client.accepts_notify (hrunning : c.rpc.dispatcher = .running) (method : String)
    (params : Option Json) :
    c.rpc.accepts (.notify method params) = [.notification { method, params }] := by
  have hnot : ¬ c.rpc.dispatcher = .ended := by
    rw [hrunning]
    exact nofun
  rw [Rpc.Client.accepts, Rpc.Client.notify, if_neg hnot]

/-- A client waits for the dispatcher to end only after it has asked it to. -/
def Client.Patient (c : Client η) : Prop :=
  ∀ result, c.activity = .closing result → c.rpc.stopping = true

/-- What a client does at once. -/
inductive Act (c : Client η) : Client η → Prop where
  /-- Nothing is said. -/
  | quiet {e : Rpc.Event η} (silent : e.directs = false) : Act c { c with rpc := c.rpc.step e }
  /-- It waits for no answer any more. -/
  | settles {activity : Activity} (patient : Client.Patient { c with activity })
      (awaits : Client.awaited? { c with activity } = none) : Act c { c with activity }
  /-- The handshake comes to its end. -/
  | greets {call : Nat} (activity : c.activity = .initializing call) (params : Option Json) :
      Act c
        { c with
          rpc := c.rpc.step (.notify "initialized" params)
          initialized := true
          activity := .idle }
  | tells (initialized : c.initialized = true) {method : String}
      (about : (Utterance.notification method).isAboutDocument = true) (params : Option Json) :
      Act c { c with rpc := c.rpc.step (.notify method params) }
  | asksLeave (initialized : c.initialized = true) (call : Nat) (closes : Bool) :
      Act c
        { c with
          rpc := c.rpc.step (.request "shutdown" none .unit)
          initialized := false
          activity := .shuttingDown call closes }
  | leaves {call : Nat} {closes : Bool} (activity : c.activity = .shuttingDown call closes) :
      Act c { c with rpc := c.rpc.step (.notify "exit" none), activity := .idle }

/-- A series of acts. -/
abbrev Acts (c after : Client η) : Prop := Relation.ReflTransGen Act c after

/-- No act makes a client wait for a dispatcher that was not asked to end. A client begins to wait
for the end only by closing, which asks for it. -/
theorem Act.patient (h : Act c after) (hpatient : c.Patient) : after.Patient := by
  cases h with
  | quiet silent =>
    exact fun result hclosing => (Rpc.advance_step c.rpc _).stopping (hpatient result hclosing)
  | settles patient => exact patient
  | greets => exact nofun
  | tells =>
    exact fun result hclosing => (Rpc.advance_step c.rpc _).stopping (hpatient result hclosing)
  | asksLeave => exact nofun
  | leaves => exact nofun

/-- No series of acts makes a client wait for a dispatcher that was not asked to end. -/
theorem Acts.patient (h : Acts c after) (hpatient : c.Patient) : after.Patient := by
  induction h with
  | refl => exact hpatient
  | tail _ hact ih => exact hact.patient ih

/-- To give up waiting is an act. -/
theorem acts_idle (c : Client η) : Acts c { c with activity := .idle } :=
  .single (.settles nofun rfl)

/-- To come to the end of closing is a series of acts: the connection is closed, and nothing is
waited for any more. -/
theorem acts_finishClose (hpatient : c.Patient) {result : Except Failure Unit}
    (hclosing : c.activity = .closing result) : Acts c (c.finishClose result).2 := by
  unfold Client.finishClose
  split
  · rename_i hended
    have hclose : Act c { c with rpc := c.rpc.step .endClose } := .quiet rfl
    rw [Rpc.Client.step, if_pos ⟨hpatient result hclosing, hended⟩] at hclose
    exact .trans (.single hclose) (acts_idle _)
  · exact .refl

/-- Closing a connection is a series of acts, whatever came before it. The dispatcher is asked to
end first, so the patience is there for what follows. -/
theorem acts_close (c : Client η) (result : Except Failure Unit) :
    Acts c ((c.beginClose result).finishClose result).2 := by
  have hasks : Act c { c with rpc := c.rpc.step .beginClose } := .quiet rfl
  have hwaits : Act { c with rpc := c.rpc.step .beginClose } (c.beginClose result) :=
    .settles (fun _ _ => rfl) rfl
  exact .trans (.head hasks (.single hwaits)) (acts_finishClose (fun _ _ => rfl) rfl)

/-- A notification that is sent is an event of the connection, and changes nothing else. -/
theorem acts_notify {method : String} {params : Option Json} {told : Client η}
    (h : c.notify method params = .ok told) :
    told = { c with rpc := c.rpc.step (.notify method params) } := by
  rw [Client.notify_eq] at h
  split at h
  · exact nomatch h
  · rename_i hnot
    obtain rfl := Except.ok.inj h
    simp only [Client.queueing, Rpc.Client.step, Rpc.Client.notify, if_neg hnot]

/-- To go on with an operation is a series of acts. What the client waits for decides which: the end
of the handshake, the word to exit, or the closing of the connection. -/
theorem acts_proceed (hpatient : c.Patient) : Acts c c.proceed.2 := by
  unfold Client.proceed
  cases hactivity : c.activity with
  | idle => exact .refl
  | closing result => exact acts_finishClose hpatient hactivity
  | initializing call =>
    dsimp only
    cases c.rpc.outcome? call with
    -- There is no answer yet, and the client waits on.
    | none => exact .refl
    | some o =>
      cases o with
      -- A handshake that fails leaves the client ready for another one.
      | error e => exact acts_idle c
      | ok result =>
        dsimp only [Client.afterInitialize]
        split
        · rename_i told hnotify
          rw [acts_notify hnotify]
          exact .single (.greets hactivity _)
        · exact acts_idle c
  | shuttingDown call closes =>
    dsimp only
    cases c.rpc.outcome? call with
    | none => exact .refl
    | some o =>
      -- Whether the connection is closed afterwards does not depend on the answer.
      have hgoesOn : ∀ (told : Client η) (result : Except Failure Unit),
          Acts c { told with activity := .idle } →
            Acts c (if closes then (told.beginClose result).finishClose result
              else (some (.ofResult result), { told with activity := .idle })).2 := by
        intro told result hidle
        split
        · exact .trans hidle (acts_close { told with activity := .idle } result)
        · exact hidle
      cases o with
      | error e => exact hgoesOn c _ (acts_idle c)
      | ok result =>
        dsimp only [Client.afterShutdown]
        cases hnotify : c.notify "exit" none with
        | error e => exact hgoesOn c _ (acts_idle c)
        | ok told =>
          refine hgoesOn told _ ?_
          rw [acts_notify hnotify]
          exact .single (.leaves hactivity)

/-- To look for the answer is an act of its own, before going on. -/
theorem acts_resume (hpatient : c.Patient) : Acts c c.resume.2 := by
  unfold Client.resume
  split
  · rename_i call _
    have hlooks : Act c { c with rpc := c.rpc.step (.resume call) } := .quiet rfl
    exact .head hlooks (acts_proceed (hlooks.patient hpatient))
  · exact acts_proceed hpatient

/-- To let the call run out of time is an act of its own, before going on. For a connection that is
closing, the dispatcher is ended by force. -/
theorem acts_expire (hpatient : c.Patient) : Acts c c.expire.2 := by
  have hoverdue : ∀ call, Acts c ({ c with rpc := c.rpc.expire call } : Client η).proceed.2 := by
    intro call
    have hlooks : Act c { c with rpc := c.rpc.step (.expire call) } := .quiet rfl
    exact .head hlooks (acts_proceed (hlooks.patient hpatient))
  unfold Client.expire
  split
  · exact .refl
  · exact hoverdue _
  · exact hoverdue _
  · -- The client waits for its dispatcher, which is stopping since it is patient.
    rename_i result hactivity
    have hclose : Act c { c with rpc := c.rpc.step .forceClose } := .quiet rfl
    rw [Rpc.Client.step, if_pos (hpatient result hactivity)] at hclose
    exact .trans (.single hclose) (acts_idle _)

/-- To ask for leave is an act, and going on after it is a series. -/
theorem acts_beginShutdown (hinitialized : c.initialized = true) (closes : Bool) :
    Acts c (c.beginShutdown closes).2 := by
  unfold Client.beginShutdown
  exact .head (.asksLeave hinitialized _ closes) (acts_proceed nofun)

/-- A client that has shaken hands asks for leave, and another one does nothing. -/
theorem acts_shutdown (c : Client η) : Acts c c.shutdown.2 := by
  unfold Client.shutdown
  split
  · rename_i hinitialized
    exact acts_beginShutdown hinitialized false
  · exact .refl

/-- A client that has shaken hands asks for leave before it closes, and another one closes at
once. -/
theorem acts_closes (c : Client η) : Acts c c.close.2 := by
  unfold Client.close
  split
  · rename_i hinitialized
    exact acts_beginShutdown hinitialized true
  · exact acts_close c _

/-- To tell of a document is an act of a client that has shaken hands. All else is refused and
changes nothing. -/
theorem acts_settled (c : Client η) {uri method : String} {params : Json}
    (habout : (Utterance.notification method).isAboutDocument = true) :
    Acts c (c.settled (c.tell uri method params)).2 := by
  cases htell : c.tell uri method params with
  | error e => exact .refl
  | ok told =>
    unfold Client.tell at htell
    split at htell
    · exact nomatch htell
    · rename_i hinitialized
      split at htell
      · rw [Client.settled, acts_notify htell]
        exact .single (.tells (not_not.mp hinitialized) habout _)
      · exact nomatch htell

/-- A handshake begins with its request. -/
def Client.knocking (c : Client η) (rootUri : Option String) (call : Nat) : Client η :=
  { c with
    rpc := c.rpc.step (.request "initialize" (some (c.initializeParams rootUri)) initializeResult)
    activity := .initializing call }

/-- Whether an event is a handshake that a client is ready for. -/
def Client.takesUp (c : Client η) (e : Event η) : Prop :=
  ∃ rootUri, e = .handshake rootUri ∧ (∀ uri ∈ rootUri, Uri.isReference uri.toList = true) ∧
    c.activity = .idle ∧ c.initialized = false

/-- A client is idle exactly if no operation is under way. -/
theorem isIdle_iff : c.isIdle = true ↔ c.activity = .idle := by
  unfold Client.isIdle
  split
  · rename_i hidle
    exact ⟨fun _ => hidle, fun _ => rfl⟩
  · rename_i hbusy
    exact ⟨nofun, fun hidle => absurd hidle hbusy⟩

/-- A handshake that a client is ready for begins with its request. What follows is a series of acts
like any other. -/
theorem acts_of_takesUp {e : Event η} (h : c.takesUp e) :
    ∃ rootUri call, Acts (c.knocking rootUri call) (c.step e).2 := by
  obtain ⟨rootUri, rfl, hroot, hidle, hnew⟩ := h
  have hvalid : (rootUri.filter fun uri => !Uri.isReference uri.toList) = none :=
    Option.filter_eq_none_iff.mpr fun uri huri => by rw [hroot uri huri]; exact Bool.false_ne_true
  unfold Client.step Client.handshake
  dsimp only
  rw [if_pos (isIdle_iff.mpr hidle), if_neg (by rw [hnew]; exact Bool.false_ne_true), hvalid]
  exact ⟨rootUri, _, acts_proceed nofun⟩

/-- A handshake that a client is not ready for does nothing: it is refused, for an operation under
way, an earlier handshake or its workspace. -/
theorem step_of_not_takesUp {rootUri : Option String}
    (h : ¬ c.takesUp (.handshake rootUri)) : (c.step (.handshake rootUri)).2 = c := by
  unfold Client.step Client.handshake
  dsimp only
  split
  · rename_i hidle
    split
    · rfl
    · rename_i hnew
      split
      · rfl
      · rename_i hvalid
        -- None of the three reasons to refuse is there, so it would be taken up, against `h`.
        refine absurd ⟨rootUri, rfl, fun uri huri => ?_, isIdle_iff.mp hidle, ?_⟩ h
        · simpa using Option.filter_eq_none_iff.mp hvalid uri huri
        · exact Bool.eq_false_iff.mpr hnew
  · rfl

/-- How a step begins: with a handshake, or with nothing of the kind. -/
inductive Begins (c : Client η) (e : Event η) : Client η → Prop where
  | same : Begins c e c
  | knocks (ready : c.takesUp e) (rootUri : Option String) (call : Nat) :
      Begins c e (c.knocking rootUri call)

/-- Every step is a handshake that begins, or none, and then a series of acts. So a statement about
a run needs one lemma for each act, and one for the beginning of a handshake. -/
theorem acts_step (hpatient : c.Patient) (e : Event η) :
    ∃ begun, Begins c e begun ∧ Acts begun (c.step e).2 := by
  by_cases hready : c.takesUp e
  · obtain ⟨rootUri, call, hacts⟩ := acts_of_takesUp hready
    exact ⟨_, .knocks hready rootUri call, hacts⟩
  refine ⟨c, .same, ?_⟩
  -- An owner who asks for something while an operation is under way is not heard.
  have hidle : ∀ {progress : Option Answer × Client η}, Acts c progress.2 →
      Acts c (if c.isIdle then progress else (none, c)).2 := by
    intro progress hacts
    split
    · exact hacts
    · exact .refl
  cases e with
  | handshake rootUri => rw [step_of_not_takesUp hready]
  | shutdown => exact hidle (acts_shutdown c)
  | close => exact hidle (acts_closes c)
  | openDocument d => exact hidle (acts_settled c (by decide))
  | closeDocument uri => exact hidle (acts_settled c (by decide))
  | resume => exact acts_resume hpatient
  | expire => exact acts_expire hpatient
  | ambient e =>
    -- What happens by itself is an act, and all else that is called so does nothing.
    unfold Client.step
    dsimp only
    split
    · rename_i hambient
      exact .single (.quiet (Rpc.directs_of_isAmbient hambient))
    · exact .refl

/-! ### Acts on the connection -/

/-- An act is an event of the connection, or none. -/
theorem Act.exists_run (h : Act c after) : ∃ events, after.rpc = c.rpc.run events := by
  cases h with
  | settles => exact ⟨[], rfl⟩
  | @quiet e => exact ⟨[e], rfl⟩
  | greets _ params => exact ⟨[.notify "initialized" params], rfl⟩
  | @tells _ method _ params => exact ⟨[.notify method params], rfl⟩
  | asksLeave => exact ⟨[.request "shutdown" none .unit], rfl⟩
  | leaves => exact ⟨[.notify "exit" none], rfl⟩

/-- A series of acts is a run of the connection. -/
theorem Acts.exists_run (h : Acts c after) : ∃ events, after.rpc = c.rpc.run events := by
  induction h with
  | refl => exact ⟨[], rfl⟩
  | tail _ hact ih =>
    obtain ⟨before, hbefore⟩ := ih
    obtain ⟨behind, hbehind⟩ := hact.exists_run
    exact ⟨before ++ behind, by rw [hbehind, hbefore, Rpc.run_append]⟩

/-- A step of the client is a run of its connection, its handshake included. What is known of
connections holds of those of clients by this. -/
theorem exists_run_step (hpatient : c.Patient) (e : Event η) :
    ∃ events, (c.step e).2.rpc = c.rpc.run events := by
  obtain ⟨begun, hbegins, hacts⟩ := acts_step hpatient e
  obtain ⟨events, hrun⟩ := hacts.exists_run
  cases hbegins with
  | same => exact ⟨events, hrun⟩
  | knocks _ rootUri call =>
    exact ⟨.request "initialize" (some (c.initializeParams rootUri)) initializeResult :: events,
      hrun⟩

/-- What has been said stays said. A conversation that has left its course stays off it by this. -/
theorem speech_mono {events : List (Rpc.Event η)} (h : after.rpc = c.rpc.run events) :
    c.speech <+: after.speech := by
  unfold Client.speech
  rw [h]
  clear h
  induction events using List.reverseRecOn with
  | nil => exact List.prefix_rfl
  | append_singleton events e ih =>
    rw [Rpc.run_concat, (Rpc.record_step _ e).1, Rpc.utterances_append]
    exact ih.trans (List.prefix_append _ _)

/-- Nothing is said over a connection that is lost, and it does not come back. So the parts have to
be followed only while messages are moved. -/
theorem speech_of_ended {events : List (Rpc.Event η)} (h : after.rpc = c.rpc.run events)
    (hended : c.rpc.dispatcher = .ended) :
    after.speech = c.speech ∧ after.rpc.dispatcher = .ended := by
  unfold Client.speech
  rw [h, Rpc.accepted_run hended, Rpc.ended_run _ hended]
  exact ⟨rfl, rfl⟩

/-! ### The parts of a conversation -/

/-- How far a conversation has come, and what may come next. -/
inductive Part (c : Client η) : Prop where
  /-- The client has asked to begin, if it has said anything. -/
  | asking (new : c.initialized = false)
      (waits : ∀ call closes, c.activity ≠ .shuttingDown call closes)
      (said : ∀ u ∈ c.speech, u.asksFor "initialize" = true)
  | talking (initialized : c.initialized = true) (waits : c.awaited? = none)
      (said : Spoken c.speech)
  /-- The client has asked to leave. -/
  | leaving (new : c.initialized = false) (waits : ∀ call, c.activity ≠ .initializing call)
      (talk : List Utterance) (id : Json) (spoken : Spoken talk)
      (said : c.speech = talk ++ [.request id "shutdown"])
  | left (new : c.initialized = false) (waits : c.awaited? = none) (talk : List Utterance)
      (id : Json) (spoken : Spoken talk) (said : c.speech = talk ++ farewell id)

/-- A client without a call to wait for waits for neither of the two answers. So what comes when it
goes on cannot be the answer to its greeting, nor that to its farewell. -/
theorem activity_ne_of_awaited? (h : c.awaited? = none) :
    (∀ call, c.activity ≠ .initializing call) ∧
      ∀ call closes, c.activity ≠ .shuttingDown call closes := by
  unfold Client.awaited? at h
  constructor
  · intro call hactivity
    rw [hactivity] at h
    exact nomatch h
  · intro call closes hactivity
    rw [hactivity] at h
    exact nomatch h

/-- In each part the conversation is in turn, as far as it has come: what has been said can be
continued to a whole conversation, and each case gives the rest of it. -/
theorem Part.inTurn (h : Part c) : InTurn c.speech := by
  cases h with
  | asking _ _ said =>
    refine ⟨c.speech ++ [.notification "initialized"], .null, ⟨c.speech, [], said, nofun, rfl⟩, ?_⟩
    rw [List.append_assoc]
    exact List.prefix_append _ _
  | talking _ _ said => exact ⟨c.speech, .null, said, List.prefix_append _ _⟩
  | leaving _ _ talk id spoken said =>
    exact ⟨talk, id, spoken, [.notification "exit"], by rw [said, List.append_assoc]; rfl⟩
  | left _ _ talk id spoken said => exact ⟨talk, id, spoken, said ▸ List.prefix_rfl⟩

/-- As long as messages are moved, every act keeps the parts in their order. Most pairs of a part
and an act cannot meet: the state of the client tells the part, and with it which acts may come. -/
theorem Part.act (h : Part c) (hrunning : c.rpc.dispatcher = .running) (hact : Act c after) :
    Part after := by
  cases hact with
  | @quiet e silent =>
    -- Nothing is said, so the part is the same.
    have hsaid : Client.speech { c with rpc := c.rpc.step e } = c.speech :=
      Rpc.utterances_quiet c.rpc silent
    cases h with
    | asking new waits said => exact .asking new waits (hsaid ▸ said)
    | talking initialized waits said => exact .talking initialized waits (hsaid ▸ said)
    | leaving new waits talk id spoken said =>
      exact .leaving new waits talk id spoken (hsaid.trans said)
    | left new waits talk id spoken said => exact .left new waits talk id spoken (hsaid.trans said)
  | settles patient awaits =>
    -- Nothing is said either, and the client waits for no answer afterwards.
    obtain ⟨hhello, hbye⟩ := activity_ne_of_awaited? awaits
    cases h with
    | asking new _ said => exact .asking new hbye said
    | talking initialized _ said => exact .talking initialized awaits said
    | leaving new _ talk id spoken said => exact .leaving new hhello talk id spoken said
    | left new _ talk id spoken said => exact .left new awaits talk id spoken said
  | @greets call activity params =>
    cases h with
    | asking new waits said =>
      -- The word that ends the handshake follows the attempts to begin.
      refine .talking rfl rfl ⟨c.speech, [], said, nofun, ?_⟩
      rw [Client.speech, c.speech_step, c.accepts_notify hrunning]
      rfl
    | talking _ waits => exact absurd activity ((activity_ne_of_awaited? waits).1 call)
    | leaving _ waits => exact absurd activity (waits call)
    | left _ waits => exact absurd activity ((activity_ne_of_awaited? waits).1 call)
  | @tells initialized method about params =>
    cases h with
    | asking new => exact nomatch new.symm.trans initialized
    | leaving new => exact nomatch new.symm.trans initialized
    | left new => exact nomatch new.symm.trans initialized
    | talking _ waits said =>
      -- Only a client that has shaken hands tells of documents.
      refine .talking initialized waits ?_
      rw [Client.speech, c.speech_step, c.accepts_notify hrunning]
      exact said.append about
  | asksLeave initialized call closes =>
    cases h with
    | asking new => exact nomatch new.symm.trans initialized
    | leaving new => exact nomatch new.symm.trans initialized
    | left new => exact nomatch new.symm.trans initialized
    | talking _ _ said =>
      -- It asks for leave, and counts as not initialized from now on.
      refine .leaving rfl (fun _ => nofun) _ (.nat (Rpc.Client.wireId (c.rpc.calls.length + 1)))
        said ?_
      rw [Client.speech, c.speech_step, Rpc.Client.accepts, if_pos hrunning]
      rfl
  | @leaves call closes activity =>
    cases h with
    | asking _ waits => exact absurd activity (waits call closes)
    | talking _ waits => exact absurd activity ((activity_ne_of_awaited? waits).2 call closes)
    | left _ waits => exact absurd activity ((activity_ne_of_awaited? waits).2 call closes)
    | leaving new _ talk id spoken said =>
      -- The word to exit follows the request to shut down at once, with nothing in between.
      refine .left new rfl talk id spoken ?_
      rw [Client.speech, c.speech_step, c.accepts_notify hrunning, said, List.append_assoc]
      rfl

/-- A client whose conversation is in turn. -/
structure Mannered (c : Client η) : Prop where
  order : InTurn c.speech
  part : c.rpc.dispatcher = .running → Part c
  patient : c.Patient

/-- What is said over a running connection tells the order, and over a lost one nothing is said. So
it is enough to follow the part while messages are moved; a connection that was lost before has
nothing more to say. -/
theorem Mannered.of_run (h : Mannered c) {events : List (Rpc.Event η)}
    (hrun : after.rpc = c.rpc.run events)
    (hpart : c.rpc.dispatcher = .running → Part after) (hpatient : after.Patient) :
    Mannered after := by
  cases hdispatcher : c.rpc.dispatcher with
  | running =>
    have hafter := hpart hdispatcher
    exact ⟨hafter.inTurn, fun _ => hafter, hpatient⟩
  | ended =>
    obtain ⟨hsame, hended⟩ := speech_of_ended hrun hdispatcher
    exact ⟨hsame ▸ h.order, fun hrunning => (nomatch hended.symm.trans hrunning), hpatient⟩

/-- An act keeps a conversation in turn. -/
theorem Mannered.act (h : Mannered c) (hact : Act c after) : Mannered after := by
  obtain ⟨events, hrun⟩ := hact.exists_run
  exact h.of_run hrun (fun hrunning => (h.part hrunning).act hrunning hact) (hact.patient h.patient)

/-- A series of acts keeps a conversation in turn. -/
theorem Mannered.acts (h : Mannered c) (hacts : Acts c after) : Mannered after := by
  induction hacts with
  | refl => exact h
  | tail _ hact ih => exact ih.act hact

/-! ### Returns -/

/-- Whether an event is a handshake that a client is ready for though it has asked the server
to shut down, over a connection that is still there. -/
def Client.Returns (c : Client η) (e : Event η) : Prop :=
  c.takesUp e ∧ c.rpc.dispatcher = .running ∧ ∃ u ∈ c.speech, u.asksFor "shutdown" = true

/-- A handshake that begins is one more request, if messages are moved. -/
theorem speech_knocking (hrunning : c.rpc.dispatcher = .running) (rootUri : Option String)
    (call : Nat) :
    ∃ id, (c.knocking rootUri call).speech = c.speech ++ [.request id "initialize"] := by
  refine ⟨.nat (Rpc.Client.wireId (c.rpc.calls.length + 1)), ?_⟩
  rw [Client.speech, Client.knocking, c.speech_step, Rpc.Client.accepts, if_pos hrunning]
  rfl

/-- A handshake that is no return is an attempt to begin. The client has not asked to leave, so it
has said nothing but earlier attempts: a client that talks is not ready for a handshake. -/
theorem Mannered.begins (h : Mannered c) {e : Event η} (hnot : ¬ c.Returns e)
    (hbegins : Begins c e after) : Mannered after := by
  cases hbegins with
  | same => exact h
  | knocks ready rootUri call =>
    have hrun : (c.knocking rootUri call).rpc = c.rpc.run
        [.request "initialize" (some (c.initializeParams rootUri)) initializeResult] := rfl
    refine h.of_run hrun (fun hrunning => ?_) nofun
    -- Not to be a return means that the request to shut down was never made.
    have hnever : ∀ u ∈ c.speech, ¬ u.asksFor "shutdown" = true := fun u hu hasks =>
      hnot ⟨ready, hrunning, u, hu, hasks⟩
    obtain ⟨id, hsaid⟩ := speech_knocking hrunning rootUri call
    obtain ⟨-, -, -, -, hnew⟩ := ready
    cases h.part hrunning with
    | talking initialized => exact nomatch hnew.symm.trans initialized
    | leaving _ _ talk id _ said =>
      refine absurd rfl (hnever (.request id "shutdown") ?_)
      rw [said]
      exact List.mem_append_right _ (List.mem_singleton.mpr rfl)
    | left _ _ talk id _ said =>
      refine absurd rfl (hnever (.request id "shutdown") ?_)
      rw [said]
      exact List.mem_append_right _ List.mem_cons_self
    | asking _ _ said =>
      -- The attempts before have failed, and this is one more.
      refine .asking hnew (fun _ _ => nofun) ?_
      rw [hsaid]
      intro u hu
      rcases List.mem_append.mp hu with hu | hu
      · exact said u hu
      · rw [List.mem_singleton.mp hu]
        rfl

/-- A step that is no return keeps a conversation in turn. -/
theorem Mannered.step (h : Mannered c) {e : Event η} (hnot : ¬ c.Returns e) :
    Mannered (c.step e).2 := by
  obtain ⟨begun, hbegins, hacts⟩ := acts_step h.patient e
  exact (h.begins hnot hbegins).acts hacts

/-- Every step keeps a client patient, a return as well. -/
theorem patient_step (hpatient : c.Patient) (e : Event η) : (c.step e).2.Patient := by
  obtain ⟨begun, hbegins, hacts⟩ := acts_step hpatient e
  refine hacts.patient ?_
  cases hbegins with
  | same => exact hpatient
  | knocks => exact nofun

/-- A conversation that has left its course, at both ends. -/
structure Astray (said : List Utterance) : Prop where
  farewell : ¬ EndsWithExit said
  handshake : ¬ ShakesOnce said

/-- A conversation that has left its course does not come back to it, since both rules forbid pairs
of words. -/
theorem Astray.mono {more : List Utterance} (h : Astray said) (hfirst : said <+: more) :
    Astray more where
  farewell hends := h.farewell (hends.sublist hfirst.sublist)
  handshake hshakes := h.handshake (hshakes.sublist hfirst.sublist)

/-- A return leads astray: the server has been greeted, and asked to shut down, before. The request
that begins the handshake comes behind both words, which breaks both rules at once. -/
theorem Mannered.astray (h : Mannered c) {e : Event η} (hreturns : c.Returns e) :
    Astray (c.step e).2.speech := by
  obtain ⟨htakesUp, hrunning, u, hu, hasks⟩ := hreturns
  obtain ⟨rootUri, call, hacts⟩ := acts_of_takesUp htakesUp
  obtain ⟨events, hrun⟩ := hacts.exists_run
  obtain ⟨id, hsaid⟩ := speech_knocking hrunning rootUri call
  refine Astray.mono ?_ (speech_mono hrun)
  rw [hsaid]
  -- A client that has asked to leave had shaken hands before that.
  have hinitialized : .notification "initialized" ∈ c.speech := by
    cases h.part hrunning with
    | asking _ _ said => exact nomatch hasks.symm.trans (asksFor_ne (said u hu) (by decide))
    | talking _ _ said => exact said.initialized
    | leaving _ _ talk id spoken said => exact said ▸ List.mem_append_left _ spoken.initialized
    | left _ _ talk id spoken said => exact said ▸ List.mem_append_left _ spoken.initialized
  have hlast : ∀ {R : Utterance → Utterance → Prop} {v : Utterance}, v ∈ c.speech →
      (c.speech ++ [Utterance.request id "initialize"]).Pairwise R →
        R v (.request id "initialize") :=
    fun hv hpairs => (List.pairwise_append.mp hpairs).2.2 _ hv _ (List.mem_singleton.mpr rfl)
  constructor
  · intro hends
    exact absurd (hlast hu hends hasks) nofun
  · intro hshakes
    exact absurd (hlast hinitialized hshakes rfl) nofun

/-! ### Runs -/

/-- The last event of a run happens to the client that the others have made. -/
theorem run_concat (c : Client η) (events : List (Event η)) (e : Event η) :
    (c.run (events ++ [e])).2 = ((c.run events).2.step e).2 := by
  induction events generalizing c with
  | nil => rfl
  | cons e' events ih => exact ih (c.step e').2

/-- Whether a run comes to a return. -/
def Returns (new : Client η) (events : List (Event η)) : Prop :=
  ∃ before e rest, events = before ++ e :: rest ∧ (new.run before).2.Returns e

variable {new : Client η}

/-- A run comes to a return at its last event, or before. This is what the inductions on a run take
its last event off by. -/
theorem returns_concat {events : List (Event η)} {e : Event η} :
    Returns new (events ++ [e]) ↔ Returns new events ∨ (new.run events).2.Returns e := by
  constructor
  · rintro ⟨before, e', rest, heq, hreturns⟩
    -- The return is the last event, or there is one behind it.
    rcases List.eq_nil_or_concat rest with rfl | ⟨rest, last, rfl⟩
    · obtain ⟨rfl, hlast⟩ := List.append_inj' heq rfl
      obtain rfl := List.head_eq_of_cons_eq hlast
      exact .inr hreturns
    · rw [List.concat_eq_append, ← List.cons_append, ← List.append_assoc] at heq
      obtain ⟨rfl, -⟩ := List.append_inj' heq rfl
      exact .inl ⟨before, e', rest, rfl, hreturns⟩
  · rintro (⟨before, e', rest, rfl, hreturns⟩ | hreturns)
    · exact ⟨before, e', rest ++ [e], by rw [List.append_assoc, List.cons_append], hreturns⟩
    · exact ⟨events, e, [], rfl, hreturns⟩

/-- A client is patient throughout its run. -/
theorem patient_run (h : new.Patient) (events : List (Event η)) : (new.run events).2.Patient := by
  induction events using List.reverseRecOn with
  | nil => exact h
  | append_singleton events e ih => exact run_concat new events e ▸ patient_step ih e

/-- What happens to the connection of a client is a run of it. -/
theorem exists_run_of_run (h : new.Patient) (events : List (Event η)) :
    ∃ inner, (new.run events).2.rpc = new.rpc.run inner := by
  induction events using List.reverseRecOn with
  | nil => exact ⟨[], rfl⟩
  | append_singleton events e ih =>
    obtain ⟨before, hbefore⟩ := ih
    obtain ⟨behind, hbehind⟩ := exists_run_step (patient_run h events) e
    exact ⟨before ++ behind, by rw [run_concat, hbehind, hbefore, Rpc.run_append]⟩

/-- Without a return, the conversation of a run goes its course. By induction on the events, since a
run without a return begins with one. -/
theorem mannered_run (h : Mannered new) {events : List (Event η)} (hnot : ¬ Returns new events) :
    Mannered (new.run events).2 := by
  induction events using List.reverseRecOn with
  | nil => exact h
  | append_singleton events e ih =>
    rw [returns_concat, not_or] at hnot
    rw [run_concat]
    exact (ih hnot.1).step hnot.2

/-- With a return, it does not: the first one leads astray, and nothing leads back. Up to the first
one the conversation is in turn, which is what `Mannered.astray` needs. -/
theorem astray_of_returns (h : Mannered new) {events : List (Event η)}
    (hreturns : Returns new events) : Astray (new.run events).2.speech := by
  induction events using List.reverseRecOn with
  | nil =>
    obtain ⟨before, e, rest, heq, -⟩ := hreturns
    exact absurd heq.symm (List.append_ne_nil_of_right_ne_nil _ (List.cons_ne_nil _ _))
  | append_singleton events e ih =>
    rw [run_concat]
    by_cases hbefore : Returns new events
    · obtain ⟨inner, hrun⟩ := exists_run_step (patient_run h.patient events) e
      exact (ih hbefore).mono (speech_mono hrun)
    · exact (mannered_run h hbefore).astray ((returns_concat.mp hreturns).resolve_left hbefore)

/-! ### New clients -/

/-- A new client that calls these handlers. -/
def created (handlers : List (String × η)) (replier : Option (Rpc.Request → Rpc.Response))
    (identity : Identity) (processId : Nat) : Client η where
  rpc := Rpc.ran ((handlers.map fun h => .onNotification h.1 h.2) ++
    (replier.map Rpc.Event.onRequest).toList)
  identity := identity
  processId := processId

/-- Who sets handlers says nothing. So a new client with handlers has said as little as one
without. -/
theorem accepted_of_installs (c : Rpc.Client η) {events : List (Rpc.Event η)}
    (h : ∀ e ∈ events, e.installs = true) : (c.run events).accepted = c.accepted := by
  induction events generalizing c with
  | nil => rfl
  | cons e events ih =>
    -- Only two kinds of events install something, and neither queues a message.
    have hnone : c.accepts e = [] := by
      have hinstalls := h e List.mem_cons_self
      cases e with
      | onNotification | onRequest => rfl
      | _ => exact nomatch hinstalls
    have hrest := ih (c.step e) fun e' he' => h e' (List.mem_cons_of_mem _ he')
    rw [(Rpc.record_step c e).1, hnone, List.append_nil] at hrest
    exact hrest

/-- A new client has said nothing, and so it is in turn. Installing handlers is all that is done to
it, and that queues no messages. -/
theorem mannered_created (handlers : List (String × η))
    (replier : Option (Rpc.Request → Rpc.Response)) (identity : Identity) (processId : Nat) :
    Mannered (created handlers replier identity processId) := by
  -- The events that make a client set its handlers, and then its replier if it has one.
  have hsilent : (created handlers replier identity processId).speech = [] := by
    refine congrArg utterances (accepted_of_installs {} fun e he => ?_)
    rcases List.mem_append.mp he with he | he
    · obtain ⟨h, -, rfl⟩ := List.mem_map.mp he
      rfl
    · obtain ⟨reply, -, rfl⟩ := Option.map_eq_some_iff.mp (Option.mem_toList.mp he)
      rfl
  have hasking : Part (created handlers replier identity processId) :=
    .asking rfl (fun _ _ => nofun) (hsilent ▸ nofun)
  exact ⟨hasking.inTurn, fun _ => hasking, nofun⟩

/-- How the words of a run depend on returns, and what of them is written. -/
structure Departs (new : Client η) (events : List (Event η)) : Prop where
  /-- Nothing but the word to exit follows the request to shut down. -/
  farewell : EndsWithExit (new.run events).2.speech ↔ ¬ Returns new events
  /-- No handshake begins after one has come to its end. -/
  handshake : ShakesOnce (new.run events).2.speech ↔ ¬ Returns new events
  /-- All words come in turn. -/
  order : InTurn (new.run events).2.speech ↔ ¬ Returns new events
  /-- What is on the wire is the first of what was queued. -/
  wire : ∃ sent, sent <+: (new.run events).2.rpc.accepted ∧
    (new.run events).2.rpc.stream.written = sent.map Rpc.Message.frame

/-- Whatever an owner asks of a client and whatever the server does, the farewell is the end of the
conversation exactly if the client is not asked for a handshake after it. The same holds of the
handshake at the other end, and what is written is the beginning of what was queued. -/
theorem farewell_iff (handlers : List (String × η))
    (replier : Option (Rpc.Request → Rpc.Response)) (identity : Identity) (processId : Nat)
    (events : List (Event η)) :
    Departs (created handlers replier identity processId) events := by
  have hnew := mannered_created handlers replier identity processId
  -- A client that comes back after its farewell has broken the order at that point, and no later
  -- event mends it. One that does not keeps the order. All three parts follow from these two facts.
  have hastray : Returns _ events → _ := astray_of_returns hnew
  have hcourse : ¬ Returns _ events → _ := mannered_run hnew
  refine ⟨⟨fun hends hreturns => ?_, fun hnot => ?_⟩, ⟨fun hshakes hreturns => ?_, fun hnot => ?_⟩,
    ⟨fun hturn hreturns => ?_, fun hnot => ?_⟩, ?_⟩
  · exact (hastray hreturns).farewell hends
  · exact (hcourse hnot).order.endsWithExit
  · exact (hastray hreturns).handshake hshakes
  · exact (hcourse hnot).order.shakesOnce
  · exact (hastray hreturns).farewell hturn.endsWithExit
  · exact (hcourse hnot).order
  · -- What is written is the beginning of what was queued in every run of a connection, and this
    -- client's run is one.
    obtain ⟨inner, hrun⟩ := exists_run_of_run hnew.patient events
    rw [hrun]
    unfold created Rpc.ran
    rw [← Rpc.run_append]
    exact Rpc.Client.wired_run _

/-- The server answers a request well, and what is queued is written. -/
def answered (n : Nat) (result : Json) : List (Event η) :=
  [.ambient .sendNext, .ambient (.write none),
    .ambient (.deliver
      (Text.encode (Framing.frame (Rpc.Response.success (.nat n) result).toJson.print))),
    .ambient .receiveNext, .resume, .ambient .sendNext, .ambient (.write none)]

/-- A client that has shaken hands, shut down and exited takes up another handshake. -/
def returning : List (Event Unit) :=
  .handshake none :: answered 1 (.object [("capabilities", .object [])]) ++
    .shutdown :: answered 2 .null ++ [.handshake none, .ambient .sendNext, .ambient (.write none)]

/-- A client that has shaken hands, shut down and exited, and is asked for a handshake again: it
greets the server once more, and the greeting is written. -/
theorem greets_after_exit :
    ((created [] none .client 0).run returning).2.speech =
        opening ++ ending ++ [.request (.nat 3) "initialize"] ∧
      ((created [] none .client 0).run returning).2.rpc.stream.written =
        ((created [] none .client 0).run returning).2.rpc.accepted.map Rpc.Message.frame ∧
      ¬ EndsWithExit ((created [] none .client 0).run returning).2.speech ∧
      ¬ ShakesOnce ((created [] none .client 0).run returning).2.speech := by
  have hsaid : ((created [] none .client 0).run returning).2.speech =
      opening ++ ending ++ [.request (.nat 3) "initialize"] := by decide +kernel
  refine ⟨hsaid, by decide +kernel, ?_, ?_⟩
  · rw [hsaid]
    unfold EndsWithExit
    decide
  · rw [hsaid]
    unfold ShakesOnce
    decide

end LanguageServer

end LanguageClient
