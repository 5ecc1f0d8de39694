import LanguageClient.Proofs.LanguageServer.Handshake

/-!
# `LanguageClient.Proofs.LanguageServer.Conduct`: the order of a conversation

A client that shakes hands once and closes once says `initialize` and `initialized`, then
something about documents, then `shutdown` and `exit`, and may break off anywhere
(`Conducted`). It says `initialized` and `exit` only when the request before has been
answered well.

The conversation has four parts, told by what the client waits for: it is asking to begin
(`Asking`), talking (`Talking`), asking to leave (`Leaving`), or it says nothing more
(`Over`). Each operation has one lemma for the part in which it is used. What happens by
itself keeps every part, since it says nothing and calls that were made go on
(`Rpc.Client.Recorded.quiet`).
-/

set_option autoImplicit false

namespace LanguageClient

/-- Whether something is said about a document. -/
def Rpc.Utterance.isAboutDocument : Rpc.Utterance → Bool
  | .notification method =>
    method == "textDocument/didOpen" || method == "textDocument/didClose"
  | .request _ _ => false

namespace LanguageServer

open Rpc (Utterance utterances)

variable {η : Type} {setup : Rpc.Setup η}

/-! ### What is said -/

/-- How a conversation begins. -/
def opening : List Utterance := [.request (.nat 1) "initialize", .notification "initialized"]

/-- How a conversation ends. -/
def ending : List Utterance := [.request (.nat 2) "shutdown", .notification "exit"]

/-- The words of a conversation: it begins, is about documents, and ends, as far as it
comes. -/
def InOrder (said : List Utterance) : Prop :=
  ∃ documents : List Utterance, (∀ u ∈ documents, u.isAboutDocument = true) ∧
    said <+: opening ++ documents ++ ending

/-- The word to exit is not said before the client asks for leave. -/
theorem exit_notMem {documents : List Utterance}
    (h : ∀ u ∈ documents, u.isAboutDocument = true) :
    .notification "exit" ∉ opening ++ documents := by
  intro hmem
  rcases List.mem_append.mp hmem with hmem | hmem
  · exact absurd hmem (by decide)
  · exact absurd (h _ hmem) (by decide)

/-- A conversation as it should be. -/
structure Conducted (setup : Rpc.Setup η) (rpc : Rpc.Client η) : Prop where
  run : ∃ events, rpc = Rpc.ran events
  setup : rpc.setup = setup
  few : rpc.calls.length ≤ 2
  order : InOrder (utterances rpc.accepted)
  initialized : .notification "initialized" ∈ utterances rpc.accepted →
    rpc.Answered 1 initializeResult
  exit : .notification "exit" ∈ utterances rpc.accepted → rpc.Answered 2 .unit

/-- A conversation is recorded, whatever its words are. -/
theorem Conducted.recorded {rpc : Rpc.Client η} (h : Conducted setup rpc) :
    rpc.Recorded setup rpc.calls.length (utterances rpc.accepted) := ⟨h.run, h.setup, rfl, rfl⟩

/-- The numbers of two calls are far below the largest one, so the counter does not start again. -/
theorem few_lt {n : Nat} (h : n ≤ 2) : n + 1 < Nat.pow 2 64 :=
  Nat.lt_of_le_of_lt (Nat.add_le_add_right h 1) (by decide)

/-- Without a caller who speaks the conversation stays as it is. The answers to earlier calls stay
answered as well, which is what the last two fields are about. -/
theorem Conducted.quiet {rpc : Rpc.Client η} (h : Conducted setup rpc) {e : Rpc.Event η}
    (hquiet : e.directs = false) : Conducted setup (rpc.step e) := by
  obtain ⟨hrun, hsetup, hcalls, hsaid⟩ := h.recorded.quiet hquiet
  refine ⟨hrun, hsetup, hcalls ▸ h.few, hsaid ▸ h.order, fun hmem => ?_, fun hmem => ?_⟩
  · exact (h.initialized (hsaid ▸ hmem)).step h.recorded (few_lt h.few) e
  · exact (h.exit (hsaid ▸ hmem)).step h.recorded (few_lt h.few) e

/-! ### The parts of a conversation -/

/-- A client that has not said anything. -/
structure Fresh (setup : Rpc.Setup η) (c : Client η) : Prop where
  initialized : c.initialized = false
  running : c.rpc.dispatcher = .running
  recorded : c.rpc.Recorded setup 0 []

/-- A client that waits for the answer to `initialize`. -/
structure Asking (setup : Rpc.Setup η) (c : Client η) : Prop where
  activity : c.activity = .initializing 1
  recorded : c.rpc.Recorded setup 1 [.request (.nat 1) "initialize"]
  asked : c.rpc.Asked 1 initializeResult

/-- A client that has shaken hands and may talk about documents. -/
structure Talking (setup : Rpc.Setup η) (c : Client η) : Prop where
  initialized : c.initialized = true
  recorded : ∃ documents : List Utterance, (∀ u ∈ documents, u.isAboutDocument = true) ∧
    c.rpc.Recorded setup 1 (opening ++ documents)
  answered : c.rpc.Answered 1 initializeResult

/-- A client that waits for the answer to `shutdown`. -/
structure Leaving (setup : Rpc.Setup η) (c : Client η) : Prop where
  activity : c.activity = .shuttingDown 2 true
  recorded : ∃ documents : List Utterance, (∀ u ∈ documents, u.isAboutDocument = true) ∧
    c.rpc.Recorded setup 2 (opening ++ documents ++ [.request (.nat 2) "shutdown"])
  asked : c.rpc.Asked 2 .unit
  answered : c.rpc.Answered 1 initializeResult

/-- A client that says nothing more. It may still wait for its connection to close. -/
structure Over (setup : Rpc.Setup η) (c : Client η) : Prop where
  awaits : c.awaited? = none
  closing : ∀ result, c.activity = .closing result → c.rpc.stopping = true
  conducted : Conducted setup c.rpc

/-- A client that has said nothing conducts itself well. -/
theorem Fresh.conducted {c : Client η} (h : Fresh setup c) : Conducted setup c.rpc := by
  obtain ⟨hrun, hsetup, hcalls, hsaid⟩ := h.recorded
  refine ⟨hrun, hsetup, hcalls ▸ by decide, hsaid ▸ ⟨[], nofun, List.nil_prefix⟩, ?_, ?_⟩
  · rw [hsaid]
    exact nofun
  · rw [hsaid]
    exact nofun

/-- A client that has asked to begin conducts itself well: its word is the first of the opening. -/
theorem Asking.conducted {c : Client η} (h : Asking setup c) : Conducted setup c.rpc := by
  obtain ⟨hrun, hsetup, hcalls, hsaid⟩ := h.recorded
  refine ⟨hrun, hsetup, hcalls ▸ by decide, hsaid ▸ ⟨[], nofun, [_, _, _], rfl⟩, ?_, ?_⟩
  · rw [hsaid]
    exact fun hmem => absurd hmem (by decide)
  · rw [hsaid]
    exact fun hmem => absurd hmem (by decide)

/-- A client that talks conducts itself well. It has said `initialized`, and its first call was
answered well. -/
theorem Talking.conducted {c : Client η} (h : Talking setup c) : Conducted setup c.rpc := by
  obtain ⟨documents, habout, hrun, hsetup, hcalls, hsaid⟩ := h.recorded
  refine ⟨hrun, hsetup, hcalls ▸ by decide, hsaid ▸ ⟨documents, habout, List.prefix_append _ _⟩,
    fun _ => h.answered, ?_⟩
  rw [hsaid]
  exact fun hmem => absurd hmem (exit_notMem habout)

/-- A client that asks to leave says what it should. It has asked to shut down behind what it said
about documents, and it has not told the server to exit yet. -/
theorem Leaving.conducted {c : Client η} (h : Leaving setup c) : Conducted setup c.rpc := by
  obtain ⟨documents, habout, hrun, hsetup, hcalls, hsaid⟩ := h.recorded
  refine ⟨hrun, hsetup, Nat.le_of_eq hcalls, ⟨documents, habout, [.notification "exit"], ?_⟩,
    fun _ => h.answered, ?_⟩
  · rw [hsaid, List.append_assoc]
    rfl
  · rw [hsaid]
    intro hmem
    rcases List.mem_append.mp hmem with hmem | hmem
    · exact absurd hmem (exit_notMem habout)
    · exact absurd hmem (by decide)

/-! ### What happens by itself -/

/-- What happens by itself leaves a client asking. -/
theorem Asking.quiet {c : Client η} (h : Asking setup c) {e : Rpc.Event η}
    (hquiet : e.directs = false) : Asking setup { c with rpc := c.rpc.step e } :=
  ⟨h.activity, h.recorded.quiet hquiet, h.asked.step h.recorded (by decide) e⟩

/-- What happens by itself leaves a client talking. -/
theorem Talking.quiet {c : Client η} (h : Talking setup c) {e : Rpc.Event η}
    (hquiet : e.directs = false) : Talking setup { c with rpc := c.rpc.step e } := by
  obtain ⟨documents, habout, hrecorded⟩ := h.recorded
  exact ⟨h.initialized, ⟨documents, habout, hrecorded.quiet hquiet⟩,
    h.answered.step hrecorded (by decide) e⟩

/-- What happens by itself leaves a client asking for leave, and the answer to its first call stays
as it was. -/
theorem Leaving.quiet {c : Client η} (h : Leaving setup c) {e : Rpc.Event η}
    (hquiet : e.directs = false) : Leaving setup { c with rpc := c.rpc.step e } := by
  obtain ⟨documents, habout, hrecorded⟩ := h.recorded
  exact ⟨h.activity, ⟨documents, habout, hrecorded.quiet hquiet⟩,
    h.asked.step hrecorded (by decide) e, h.answered.step hrecorded (by decide) e⟩

/-- What happens by itself leaves a client silent that says nothing more. -/
theorem Over.quiet {c : Client η} (h : Over setup c) {e : Rpc.Event η}
    (hquiet : e.directs = false) : Over setup { c with rpc := c.rpc.step e } where
  awaits := h.awaits
  closing result hactivity := (Rpc.advance_step c.rpc e).stopping (h.closing result hactivity)
  conducted := h.conducted.quiet hquiet

/-- A client that is put aside says nothing more. -/
theorem Conducted.finished {c : Client η} (h : Conducted setup c.rpc) (hidle : c.activity = .idle) :
    Over setup c :=
  ⟨by rw [Client.awaited?, hidle], fun _ hactivity => absurd (hidle.symm.trans hactivity) nofun, h⟩

/-- A connection that is let go says nothing more, whatever the client was waiting for. -/
theorem Conducted.drop {c : Client η} (h : Conducted setup c.rpc) :
    Over setup { c with rpc := c.rpc.drop, activity := .idle } := by
  have hdrop : Conducted setup (c.rpc.step .drop) := h.quiet rfl
  exact Conducted.finished hdrop rfl

/-! ### Beginning -/

/-- How a client that asks to begin can go on. -/
inductive Greeting (setup : Rpc.Setup η) : Option Answer × Client η → Prop where
  | waits {after : Client η} (asking : Asking setup after) : Greeting setup (none, after)
  | fails {after : Client η} (e : Failure) (finished : Over setup after) :
      Greeting setup (some (.failed e), after)
  | ends {after : Client η} (result : Json) (talking : Talking setup after) :
      Greeting setup (some (.initialized result), after)

/-- A client that asks to begin waits, fails, or goes on to talk. It says `initialized` only in the
last case, and its call was answered well then. -/
theorem Asking.proceed {c : Client η} (h : Asking setup c) : Greeting setup c.proceed := by
  have hidle : Over setup { c with activity := .idle } := Conducted.finished h.conducted rfl
  unfold Client.proceed
  rw [h.activity]
  dsimp only
  cases houtcome : c.rpc.outcome? 1 with
  -- There is no answer yet.
  | none => exact .waits h
  | some o =>
    cases o with
    | error e => exact .fails _ hidle
    | ok result =>
      -- The handshake ends with a notification, if messages are still moved.
      dsimp only [Client.afterInitialize]
      rw [Client.notify_eq]
      by_cases hended : c.rpc.dispatcher = .ended
      · rw [if_pos hended]
        exact .fails _ hidle
      · rw [if_neg hended]
        have hrunning := Rpc.Client.running_of_ne_ended hended
        have hanswered := h.asked.answered houtcome
        -- The word is said after a good answer, with no document in between.
        refine .ends result ⟨rfl, ⟨[], nofun, ?_⟩, ?_⟩
        · exact h.recorded.notify hrunning "initialized" _
        · exact hanswered

/-- Looking for the answer is an event of the connection; after it the client goes on as before. -/
theorem Asking.resume {c : Client η} (h : Asking setup c) : Greeting setup c.resume := by
  have hresume : c.resume = ({ c with rpc := c.rpc.step (.resume 1) } : Client η).proceed := by
    rw [Client.resume, Client.awaited?, h.activity]
    rfl
  rw [hresume]
  exact (h.quiet rfl).proceed

/-- Running out of time is an event of the connection, after which the call has an outcome; with it
the client goes on as before. -/
theorem Asking.expire {c : Client η} (h : Asking setup c) : Greeting setup c.expire := by
  have hexpire : c.expire = ({ c with rpc := c.rpc.step (.expire 1) } : Client η).proceed := by
    rw [Client.expire, h.activity]
    rfl
  rw [hexpire]
  exact (h.quiet rfl).proceed

/-- A client that has said nothing begins with `initialize`, or it is refused and says nothing
more. -/
theorem Fresh.handshake {c : Client η} (h : Fresh setup c) (hidle : c.activity = .idle)
    (rootUri : Option String) : Greeting setup (c.handshake rootUri) := by
  unfold Client.handshake
  rw [if_neg (by rw [h.initialized]; exact nofun)]
  split
  · exact .fails _ (h.conducted.finished hidle)
  · dsimp only
    generalize hrequest : c.rpc.request "initialize" _ initializeResult = requested
    obtain ⟨n, rpc⟩ := requested
    obtain ⟨rfl, hasked, hrecorded, -⟩ := h.recorded.request (by decide) _ _ _ hrequest
    refine Asking.proceed ⟨rfl, hrecorded h.running, hasked⟩

/-! ### Talking -/

/-- Whatever a client that talks tells of a document, it goes on talking. Its word comes behind the
others about documents, and it is about one itself. -/
theorem Talking.tell {c after : Client η} (h : Talking setup c) {uri method : String}
    {params : Json} (hmethod : (Utterance.notification method).isAboutDocument = true)
    (htell : c.tell uri method params = .ok after) : Talking setup after := by
  obtain ⟨documents, habout, hrecorded⟩ := h.recorded
  unfold Client.tell at htell
  rw [if_neg (by rw [h.initialized]; exact fun hnot => hnot rfl)] at htell
  split at htell
  · rw [Client.notify_eq] at htell
    split at htell
    · -- The connection is gone, and nothing is said.
      exact nomatch htell
    · rename_i hnot
      obtain rfl := Except.ok.inj htell
      have hrunning := Rpc.Client.running_of_ne_ended hnot
      refine ⟨h.initialized, ⟨documents ++ [.notification method], ?_, ?_⟩, h.answered⟩
      · intro u hu
        rcases List.mem_append.mp hu with hu | hu
        · exact habout u hu
        · rw [List.mem_singleton.mp hu]
          exact hmethod
      · rw [← List.append_assoc]
        exact hrecorded.notify hrunning method _
  · exact nomatch htell

/-- To open a document is to tell of it. -/
theorem Talking.openDocument {c after : Client η} (h : Talking setup c) {d : Document}
    (hopen : c.openDocument d = .ok after) : Talking setup after := h.tell (by decide) hopen

/-- To close a document is to tell of it. -/
theorem Talking.closeDocument {c after : Client η} (h : Talking setup c) {uri : String}
    (hclose : c.closeDocument uri = .ok after) : Talking setup after := h.tell (by decide) hclose

/-! ### Ending -/

/-- A client that closes its connection says nothing while it does so. -/
theorem Over.finishClose {c : Client η} (h : Over setup c) {result : Except Failure Unit}
    (hclosing : c.activity = .closing result) : Over setup (c.finishClose result).2 := by
  unfold Client.finishClose
  split
  · rename_i hended
    have hclose : Conducted setup (c.rpc.step .endClose) := h.conducted.quiet rfl
    rw [Rpc.Client.step, if_pos ⟨h.closing result hclosing, hended⟩] at hclose
    exact Conducted.finished hclose rfl
  · exact h

/-- A client that says nothing more may still wait, but not for an answer, so going on says nothing
either. -/
theorem Over.proceed {c : Client η} (h : Over setup c) : Over setup c.proceed.2 := by
  -- It waits for no call, which excludes the two stages in the middle.
  have hawaits := h.awaits
  unfold Client.awaited? at hawaits
  unfold Client.proceed
  cases hactivity : c.activity with
  | idle => exact h
  | initializing call =>
    rw [hactivity] at hawaits
    exact nomatch hawaits
  | shuttingDown call closes =>
    rw [hactivity] at hawaits
    exact nomatch hawaits
  | closing result => exact h.finishClose hactivity

/-- A client that says nothing more has no call to look for. It goes on, which says nothing
either. -/
theorem Over.resume {c : Client η} (h : Over setup c) : Over setup c.resume.2 := by
  rw [Client.resume, h.awaits]
  exact h.proceed

/-- When its time runs out, its connection is closed by force. It waits for no answer any more, so
time can run out only while its connection is being closed, and nothing is said by that. -/
theorem Over.expire {c : Client η} (h : Over setup c) : Over setup c.expire.2 := by
  -- It waits for no call, which excludes the two stages in the middle.
  have hawaits := h.awaits
  unfold Client.awaited? at hawaits
  unfold Client.expire
  cases hactivity : c.activity with
  | idle => exact h
  | initializing call =>
    rw [hactivity] at hawaits
    exact nomatch hawaits
  | shuttingDown call closes =>
    rw [hactivity] at hawaits
    exact nomatch hawaits
  | closing result =>
    have hclose : Conducted setup (c.rpc.step .forceClose) := h.conducted.quiet rfl
    rw [Rpc.Client.step, if_pos (h.closing result hactivity)] at hclose
    exact Conducted.finished hclose rfl

/-- Closing a connection says nothing more. So the conversation is what it was when closing
began. -/
theorem Conducted.close {c : Client η} (h : Conducted setup c.rpc) (result : Except Failure Unit) :
    Over setup ((c.beginClose result).finishClose result).2 := by
  have hbegin : Conducted setup (c.rpc.step .beginClose) := h.quiet rfl
  refine Over.finishClose ?_ rfl
  exact ⟨rfl, fun _ _ => rfl, hbegin⟩

/-- How a client that asks to leave can go on: it waits for the answer, or it says nothing
more. -/
def Parting (setup : Rpc.Setup η) (progress : Option Answer × Client η) : Prop :=
  progress.1 = none ∧ Leaving setup progress.2 ∨ Over setup progress.2

/-- A client that is not allowed to leave closes its connection all the same, and does not tell the
server to exit. -/
theorem parting_of_refused {c : Client η} (h : Conducted setup c.rpc) {call : Nat}
    (hactivity : c.activity = .shuttingDown call true) {e : Rpc.CallError}
    (houtcome : c.rpc.outcome? call = some (.error e)) : Parting setup c.proceed := by
  refine .inr ?_
  unfold Client.proceed
  rw [hactivity]
  dsimp only
  rw [houtcome]
  exact h.close _

/-- A client that asks to leave waits, or it tells the server to exit if its leave was granted.
After that it says nothing more. -/
theorem Leaving.proceed {c : Client η} (h : Leaving setup c) : Parting setup c.proceed := by
  cases houtcome : c.rpc.outcome? 2 with
  | none =>
    have hwaits : c.proceed = (none, c) := by
      unfold Client.proceed
      rw [h.activity]
      dsimp only
      rw [houtcome]
    rw [hwaits]
    exact .inl ⟨rfl, h⟩
  | some o =>
    cases o with
    | error e => exact parting_of_refused h.conducted h.activity houtcome
    | ok result =>
      refine .inr ?_
      unfold Client.proceed
      rw [h.activity]
      dsimp only
      rw [houtcome]
      dsimp only [Client.afterShutdown]
      rw [Client.notify_eq]
      by_cases hended : c.rpc.dispatcher = .ended
      · -- Leave was granted, but the connection is gone.
        rw [if_pos hended]
        exact h.conducted.close _
      · rw [if_neg hended]
        obtain ⟨documents, habout, hrecorded⟩ := h.recorded
        have hrunning := Rpc.Client.running_of_ne_ended hended
        -- The conversation is complete now.
        have hconducted :
            Conducted setup (c.queueing (.notification ⟨Rpc.version, "exit", none⟩)).rpc := by
          obtain ⟨hrun, hsetup, hcalls, hsaid⟩ := hrecorded.notify hrunning "exit" none
          refine ⟨hrun, hsetup, Nat.le_of_eq hcalls, ⟨documents, habout, [], ?_⟩,
            fun _ => h.answered, fun _ => h.asked.answered houtcome⟩
          rw [Client.queueing, hsaid, List.append_nil, List.append_assoc]
          rfl
        exact hconducted.close _

/-- Looking for the answer leaves the client asking, or it goes on. -/
theorem Leaving.resume {c : Client η} (h : Leaving setup c) : Parting setup c.resume := by
  have hresume : c.resume = ({ c with rpc := c.rpc.step (.resume 2) } : Client η).proceed := by
    rw [Client.resume, Client.awaited?, h.activity]
    rfl
  rw [hresume]
  exact (h.quiet rfl).proceed

/-- Running out of time is an outcome like a refusal. -/
theorem Leaving.expire {c : Client η} (h : Leaving setup c) : Parting setup c.expire := by
  have hexpire : c.expire = ({ c with rpc := c.rpc.step (.expire 2) } : Client η).proceed := by
    rw [Client.expire, h.activity]
    rfl
  rw [hexpire]
  exact (h.quiet rfl).proceed

/-- A client that talks asks to leave. It is the second call of the conversation, so that the number
it gets is known. -/
theorem Talking.close {c : Client η} (h : Talking setup c) : Parting setup c.close := by
  obtain ⟨documents, habout, hrecorded⟩ := h.recorded
  unfold Client.close
  rw [if_pos h.initialized]
  unfold Client.beginShutdown
  generalize hrequest : c.rpc.request "shutdown" none .unit = requested
  obtain ⟨n, rpc⟩ := requested
  obtain ⟨rfl, hasked, hsent, hrefused⟩ := hrecorded.request (by decide) _ _ _ hrequest
  have hstep : c.rpc.step (.request "shutdown" none .unit) = rpc := congrArg Prod.snd hrequest
  have hanswered : rpc.Answered 1 initializeResult :=
    hstep ▸ h.answered.step hrecorded (by decide) _
  cases hdispatcher : c.rpc.dispatcher with
  | running =>
    -- The word is sent, and the client waits for its answer.
    exact Leaving.proceed ⟨rfl, ⟨documents, habout, hsent hdispatcher⟩, hasked, hanswered⟩
  | ended =>
    -- Nothing has been sent, so nothing more has been said.
    obtain ⟨⟨hrun, hsetup, hcalls, hsaid⟩, houtcome⟩ := hrefused hdispatcher
    refine parting_of_refused ?_ rfl houtcome
    refine ⟨hrun, hsetup, Nat.le_of_eq hcalls, hsaid ▸ ⟨documents, habout, List.prefix_append _ _⟩,
      fun _ => hanswered, ?_⟩
    rw [hsaid]
    exact fun hmem => absurd hmem (exit_notMem habout)

end LanguageServer

end LanguageClient
