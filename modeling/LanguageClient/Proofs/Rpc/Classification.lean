import LanguageClient.Proofs.Rpc.Correlation
import LanguageClient.Proofs.Rpc.Grammar

/-!
# `LanguageClient.Proofs.Rpc.Classification`: what is taken for a message

A payload should be the message that its fields tell, and anything else should be an error that
no caller hears of (`Lawful`). This holds of every payload except those that list a response
(`ListsText`), which the client takes for that response.

What a call has from the other end was in a payload (`Call.Backed`). `backed_step` shows that
every step keeps this, and `backed_run` follows by induction on the run. There is no bound on the
number of calls here: ids may have gone round.

* `lawful_iff`: which payloads are what they should be.
* `classified`: how payloads are read, and which of them end calls in a run.
* `listed_completes`: a call that an array ends.
-/

set_option autoImplicit false

namespace LanguageClient.Rpc

open Client
open Json (lookup)

/-! ### Where an end comes from -/

/-- A response to the call of a number is among the payloads. -/
def AnswerAmong (payloads : List (List Char)) (number : Nat) (r : Response) : Prop :=
  ∃ payload ∈ payloads, Message.parse payload = .ok (.response r) ∧ r.id = .nat (wireId number)

/-- An answer stays among the payloads when more of them come. -/
theorem AnswerAmong.mono {payloads payloads' : List (List Char)} {number : Nat} {r : Response}
    (h : AnswerAmong payloads number r) (hsub : payloads ⊆ payloads') :
    AnswerAmong payloads' number r := by
  obtain ⟨payload, hmem, hread⟩ := h
  exact ⟨payload, hsub hmem, hread⟩

/-- The response in the mailbox of a call, and the one that decided its end, were in payloads. -/
structure Call.Backed (payloads : List (List Char)) (call : Call) : Prop where
  mailbox : ∀ r, call.mailbox = .filled r → AnswerAmong payloads call.number r
  progress : ∀ o, call.progress = .ended o → isServerDecided o = true →
    ∃ r, AnswerAmong payloads call.number r ∧ o = r.outcome call.shape

namespace Call

variable {payloads payloads' : List (List Char)} {call : Call}

/-- What is backed by payloads stays so when more of them come. -/
theorem Backed.mono (h : call.Backed payloads) (hsub : payloads ⊆ payloads') :
    call.Backed payloads' := by
  refine ⟨fun r hr => (h.mailbox r hr).mono hsub, fun o ho hdecided => ?_⟩
  obtain ⟨r, hanswer, houtcome⟩ := h.progress o ho hdecided
  exact ⟨r, hanswer.mono hsub, houtcome⟩

/-- Giving a call up leaves nothing of the other end in its mailbox. -/
theorem Backed.giveUp (h : call.Backed payloads) : call.giveUp.Backed payloads := by
  unfold Call.giveUp
  split
  · exact ⟨nofun, h.progress⟩
  · exact h

/-- A response that is among the payloads may fill the mailbox. This is the only place where a call
gets something from the other end. -/
theorem Backed.fill {r : Response} (h : call.Backed payloads)
    (hanswer : AnswerAmong payloads call.number r) : (call.fill r).Backed payloads := by
  unfold Call.fill
  split
  · rename_i hopen
    -- Who can still be answered has no end yet.
    constructor
    · intro r' hr
      cases hr
      exact hanswer
    · intro o ho
      exact nomatch (isWaiting_iff.mp hopen.1).symm.trans ho
  · exact h

/-- What a caller makes of the mailbox is the outcome of the response in it, which is backed
already. One who finds that it was given up ends with no decision of the other end. -/
theorem Backed.resume (h : call.Backed payloads) : call.resume.Backed payloads := by
  unfold Call.resume
  split
  · split
    · exact h
    · rename_i r hr
      refine ⟨h.mailbox, fun o ho _ => ⟨r, h.mailbox r hr, ?_⟩⟩
      exact (Progress.ended.inj ho).symm
    · refine ⟨h.mailbox, fun o ho hdecided => ?_⟩
      cases ho
      exact nomatch hdecided
  · exact h

/-- The end of a caller whose time has run out is not decided by the other end, unless the mailbox
has a response by then, and that is backed. -/
theorem Backed.expire (h : call.Backed payloads) : call.expire.Backed payloads := by
  unfold Call.expire
  split
  · refine ⟨h.mailbox, fun o ho hdecided => ?_⟩
    cases ho
    exact nomatch hdecided
  · exact h.resume

/-- Whoever goes away has no end. -/
theorem Backed.abandon (h : call.Backed payloads) : call.abandon.Backed payloads := by
  unfold Call.abandon
  split
  · exact ⟨h.mailbox, nofun⟩
  · exact h

end Call

variable {η : Type} {c after : Client η}

/-- Every call has from the other end only what was received. -/
def Client.Backed (c : Client η) : Prop := ∀ call ∈ c.calls, call.Backed c.received

namespace Client

/-- A step that changes each call for itself keeps the calls backed if each change does. Payloads
received before are still received. -/
theorem Backed.of_map (h : c.Backed) {g : Call → Call} (hcalls : after.calls = c.calls.map g)
    (hreceived : c.received ⊆ after.received)
    (hg : ∀ call, call.Backed after.received → (g call).Backed after.received) :
    after.Backed := by
  intro call hmem
  rw [hcalls] at hmem
  obtain ⟨old, hold, rfl⟩ := List.mem_map.mp hmem
  exact hg old ((h old hold).mono hreceived)

/-- A step that leaves the calls alone may only add payloads. -/
theorem Backed.congr (h : c.Backed) (hcalls : after.calls = c.calls)
    (hreceived : c.received ⊆ after.received) : after.Backed :=
  h.of_map (g := id) (by rw [hcalls, List.map_id]) hreceived fun _ => id

/-- A call that has just been made has nothing from the other end. Its mailbox is empty, and if it
has ended at once then nobody but the client has decided that. -/
theorem Backed.concat (h : c.Backed) {fresh : Call} (hcalls : after.calls = c.calls ++ [fresh])
    (hreceived : after.received = c.received) (hmailbox : fresh.mailbox = .empty)
    (hprogress : ∀ o, fresh.progress = .ended o → isServerDecided o = false) : after.Backed := by
  intro call hmem
  rw [hcalls, List.mem_append, List.mem_singleton] at hmem
  rw [hreceived]
  rcases hmem with hold | rfl
  · exact h call hold
  · constructor
    · intro r hr
      exact nomatch hmailbox.symm.trans hr
    · intro o ho hdecided
      exact nomatch (hprogress o ho).symm.trans hdecided

/-- Calls that are given up are changed one by one. -/
theorem Backed.giveUp (h : c.Backed) (numbers : List Nat) : (c.giveUp numbers).Backed := by
  refine h.of_map rfl (List.Subset.refl _) fun call hcall => ?_
  split
  · exact hcall.giveUp
  · exact hcall

/-- The end of the dispatcher gives calls up and receives nothing. -/
theorem Backed.endDispatch (h : c.Backed) : c.endDispatch.Backed :=
  (h.giveUp c.pending).congr rfl (List.Subset.refl _)

/-- One call is changed, in a way that keeps it backed. -/
theorem Backed.update (h : c.Backed) (number : Nat) {f : Call → Call}
    (hf : ∀ call, call.Backed c.received → (f call).Backed c.received) :
    (c.update number f).Backed := by
  refine h.of_map rfl (List.Subset.refl _) fun call hcall => ?_
  split
  · exact hf call hcall
  · exact hcall

/-- A look of a caller changes that call, and may give up those who share its id. Neither brings
anything from the other end that was not there before. -/
theorem Backed.look (h : c.Backed) (number : Nat) {f : Call → Call}
    (hf : ∀ call, call.Backed c.received → (f call).Backed c.received) :
    (c.look number f).Backed := by
  have hlooked := h.update number hf
  unfold Client.look settleTable
  split
  · split
    · exact Backed.giveUp (hlooked.congr rfl (List.Subset.refl _)) _
    · exact Backed.giveUp (hlooked.congr rfl (List.Subset.refl _)) _
    · exact hlooked
  · exact h

/-- A request gives up whoever has its id and adds a call with an empty mailbox, which has an end
only if it fails at once. -/
theorem Backed.request (h : c.Backed) (method : String) (params : Option Json) (shape : Shape) :
    (c.request method params shape).2.Backed := by
  have hgiven := h.giveUp (c.sharing (c.calls.length + 1))
  unfold Client.request
  dsimp only
  split
  · refine hgiven.concat rfl rfl rfl fun o ho => ?_
    cases ho
    rfl
  · exact hgiven.concat rfl rfl rfl nofun

/-- A response that was received fills the mailbox of a call that has its id. Two calls may have
this id when the counter has gone round. Whichever of them the table finds, the id in the payload is
its own. -/
theorem Backed.acceptResponse (h : c.Backed) {payload : List Char} {r : Response}
    (hmem : payload ∈ c.received) (hparse : Message.parse payload = .ok (.response r)) :
    (c.acceptResponse r).Backed := by
  unfold Client.acceptResponse
  split
  · -- The table is searched by ids, which may be shared, and the call is changed by number.
    rename_i number hfound
    obtain ⟨id, hid, hfind⟩ := Option.bind_eq_some_iff.mp hfound
    have hchosen := List.find?_some hfind
    have hwire : wireId number = id := of_decide_eq_true hchosen
    have hanswer : AnswerAmong c.received number r :=
      ⟨payload, hmem, hparse, hwire ▸ eq_nat_of_word64? hid⟩
    refine h.of_map rfl (List.Subset.refl _) fun call hcall => ?_
    split
    · rename_i hnumber
      exact hcall.fill (hnumber ▸ hanswer)
    · exact hcall
  · exact h

/-- A payload is counted as received before it is looked at, so whatever comes of it is backed. Only
a response gives something to a call, and that response is what has just been received. -/
theorem Backed.accept (h : c.Backed) (payload : List Char) : (c.accept payload).Backed := by
  have htaken : Client.Backed { c with received := c.received ++ [payload] } :=
    h.congr rfl (List.subset_append_left _ _)
  unfold Client.accept
  dsimp only
  split
  · rename_i r hparse
    exact htaken.acceptResponse List.mem_concat_self hparse
  · unfold acceptNotification
    split <;> exact htaken.congr rfl (List.Subset.refl _)
  · unfold acceptRequest
    split <;> exact htaken.congr rfl (List.Subset.refl _)
  · exact htaken

end Client

/-- Every step keeps what calls have from the other end backed by payloads. This is what an outcome
that the other end decided is traced back by, to the response that decided it. -/
theorem backed_step (h : c.Backed) (e : Event η) : (c.step e).Backed := by
  -- Only `receiveNext` lets anything of the other end in; the rest changes calls as callers do.
  cases e with
  | request method params shape => exact h.request method params shape
  | notify method params =>
    by_cases hended : c.dispatcher = .ended
    · simpa only [step, notify, if_pos hended] using h
    · simp only [step, notify, if_neg hended]
      exact h.congr rfl (List.Subset.refl _)
  | resume number => exact h.look number fun _ hcall => hcall.resume
  | expire number => exact h.look number fun _ hcall => hcall.expire
  | abandon number => exact h.update number fun _ hcall => hcall.abandon
  | cancelAll => exact h.giveUp c.pending
  | sendNext =>
    -- A refusal of the stream ends the dispatcher, and giving a call up brings it no answer.
    show c.sendNext.Backed
    unfold sendNext
    split
    · split
      · exact h.congr rfl (List.Subset.refl _)
      · exact Backed.endDispatch (h.congr rfl (List.Subset.refl _))
    · exact h
  | receiveNext =>
    show c.receiveNext.Backed
    rcases c.receiveNext_cases with ⟨payload, hpayload⟩ |
      ⟨framing, incoming, connected, notices, heq | heq⟩
    · obtain ⟨framing, incoming, heq⟩ := receiveNext_of_arrives hpayload
      rw [heq]
      refine Backed.accept ?_ payload
      exact h.congr rfl (List.Subset.refl _)
    · rw [heq]
      exact h.congr rfl (List.Subset.refl _)
    · rw [heq]
      exact Backed.endDispatch (h.congr rfl (List.Subset.refl _))
  | stop =>
    show c.stop.Backed
    unfold stop
    split
    · exact Backed.endDispatch (h.congr rfl (List.Subset.refl _))
    · exact h
  | beginClose => exact (h.giveUp c.pending).congr rfl (List.Subset.refl _)
  | endClose =>
    show Client.Backed (if c.stopping ∧ c.dispatcher = .ended then c.endClose else c)
    split
    · exact h.congr rfl (List.Subset.refl _)
    · exact h
  | forceClose =>
    -- Cutting the dispatcher off touches no call.
    show Client.Backed (if c.stopping then c.forceClose else c)
    unfold forceClose
    split
    · split <;> exact h.congr rfl (List.Subset.refl _)
    · exact h
  | onNotification | onRequest | drop | write | deliver | finish | breakOff =>
    exact h.congr rfl (List.Subset.refl _)

/-- In every run calls have from the other end only what was received. -/
theorem backed_run (events : List (Event η)) : (ran events).Backed := by
  induction events using List.reverseRecOn with
  | nil => exact nofun
  | append_singleton events e ih =>
    rw [ran, run_concat]
    exact backed_step ih e

/-- Whatever the other end decided was in a payload with the id of the call. It is the mailbox that
leads from the outcome of the call to that payload. -/
theorem exists_answerAmong (events : List (Event η)) {n : Nat} {o : Outcome}
    (ho : (ran events).outcome? n = some o) (hdecided : isServerDecided o = true) :
    ∃ r shape, AnswerAmong (ran events).received n r ∧ o = r.outcome shape := by
  obtain ⟨call, hcall, hend⟩ := Option.bind_eq_some_iff.mp ho
  obtain ⟨hmem, hnumber⟩ := mem_of_call? hcall
  have hbacked := backed_run events call hmem
  obtain ⟨r, hanswer, houtcome⟩ := hbacked.progress o (Call.outcome?_eq_some.mp hend) hdecided
  rw [hnumber] at hanswer
  exact ⟨r, call.shape, hanswer, houtcome⟩

/-! ### What payloads should be -/

/-- A payload is what it should be: it is read as the message that its fields tell, and if they
tell none, it is an error and only taken. -/
structure Lawful (payload : List Char) : Prop where
  told : ∀ m, Message.parse payload = .ok m ↔ TellsText payload m
  error : (∃ fault, Message.parse payload = .error fault) ↔ ∀ m, ¬ TellsText payload m
  idle : (∀ m, ¬ TellsText payload m) → ∀ {η : Type} (c : Client η),
    c.accept payload = { c with received := c.received ++ [payload] }

variable {payload : List Char}

/-- What a payload tells it does not list. A text has one value, and by `Tells.not_lists` this value
cannot do both. -/
theorem TellsText.not_listsText {m : Message} (h : TellsText payload m) (r : Response) :
    ¬ ListsText payload r := by
  obtain ⟨fields, hparse, htells⟩ := h
  rintro ⟨v, hparse', hlists⟩
  rw [hparse] at hparse'
  cases hparse'
  exact htells.not_lists r hlists

/-- A payload is an error exactly if it neither tells a message nor lists a response. There is no
third way to be read, by `Message.parse_eq_ok_iff`. -/
theorem exists_error_iff : (∃ fault, Message.parse payload = .error fault) ↔
    (∀ m, ¬ TellsText payload m) ∧ ∀ r, ¬ ListsText payload r := by
  cases hparse : Message.parse payload with
  | error fault =>
    refine iff_of_true ⟨fault, rfl⟩ ⟨fun m htells => ?_, fun r hlists => ?_⟩
    · exact nomatch (Message.parse_eq_ok_iff.mpr (.inl htells)).symm.trans hparse
    · exact nomatch (Message.parse_eq_ok_iff.mpr (.inr ⟨r, rfl, hlists⟩)).symm.trans hparse
  | ok m =>
    refine iff_of_false nofun ?_
    rintro ⟨hnothing, hnot⟩
    rcases Message.parse_eq_ok_iff.mp hparse with htells | ⟨r, -, hlists⟩
    · exact hnothing m htells
    · exact hnot r hlists

/-- A payload is what it should be exactly if it lists nothing. A listed response is read, though no
fields of an object tell it; apart from that the reader accepts what the grammar says and nothing
more. -/
theorem lawful_iff : Lawful payload ↔ ∀ r, ¬ ListsText payload r := by
  constructor
  · intro hlawful r hlists
    have hread := Message.parse_eq_ok_iff.mpr (.inr ⟨r, rfl, hlists⟩)
    exact ((hlawful.told _).mp hread).not_listsText r hlists
  · intro hnot
    have herror : (∃ fault, Message.parse payload = .error fault) ↔
        ∀ m, ¬ TellsText payload m := by
      rw [exists_error_iff, and_iff_left hnot]
    -- With nothing listed, what is read is told, and an error is all that is left.
    refine ⟨fun m => ?_, herror, fun hnothing η c => ?_⟩
    · rw [Message.parse_eq_ok_iff, or_iff_left]
      rintro ⟨r, -, hlists⟩
      exact hnot r hlists
    · obtain ⟨fault, hparse⟩ := herror.mpr hnothing
      rw [accept, hparse]

/-! ### Kinds of payloads -/

/-- A payload is read as a request exactly if it is an object whose fields tell one. An array has no
`method`, so no request can be listed. -/
theorem exists_parse_request_iff : (∃ r, Message.parse payload = .ok (.request r)) ↔
    ∃ fields, Json.parse payload = .ok (.object fields) ∧ ∃ r, Tells fields (.request r) := by
  simp only [Message.parse_eq_ok_iff, TellsText, reduceCtorEq, false_and, exists_false, or_false]
  rw [exists_comm]
  simp only [exists_and_left]

/-- A payload is read as a notification exactly if it is an object whose fields tell one. An array
has no `method`, so no notification can be listed. -/
theorem exists_parse_notification_iff : (∃ n, Message.parse payload = .ok (.notification n)) ↔
    ∃ fields, Json.parse payload = .ok (.object fields) ∧ ∃ n, Tells fields (.notification n) := by
  simp only [Message.parse_eq_ok_iff, TellsText, reduceCtorEq, false_and, exists_false, or_false]
  rw [exists_comm]
  simp only [exists_and_left]

/-- A response is told or listed: it is the one kind that an array can be read as. -/
theorem parse_response_iff {r : Response} : Message.parse payload = .ok (.response r) ↔
    TellsText payload (.response r) ∨ ListsText payload r := by
  simp only [Message.parse_eq_ok_iff, Message.response.injEq, exists_eq_left']

/-- A payload is read as a response exactly if its fields tell one or it lists one. -/
theorem exists_parse_response_iff : (∃ r, Message.parse payload = .ok (.response r)) ↔
    (∃ fields, Json.parse payload = .ok (.object fields) ∧ ∃ r, Tells fields (.response r)) ∨
      ∃ r, ListsText payload r := by
  simp only [parse_response_iff, exists_or, TellsText]
  rw [exists_comm]
  simp only [exists_and_left]

/-- How payloads are read, and which of them end the calls of a run. -/
structure Classified (events : List (Event η)) : Prop where
  /-- A payload is read as the message that it tells or lists. -/
  read : ∀ payload m, Message.parse payload = .ok m ↔
    TellsText payload m ∨ ∃ r, m = .response r ∧ ListsText payload r
  request : ∀ payload, (∃ r, Message.parse payload = .ok (.request r)) ↔
    ∃ fields, Json.parse payload = .ok (.object fields) ∧
      HasText fields "jsonrpc" ∧ HasText fields "method" ∧ HasId fields
  notification : ∀ payload, (∃ n, Message.parse payload = .ok (.notification n)) ↔
    ∃ fields, Json.parse payload = .ok (.object fields) ∧
      HasText fields "jsonrpc" ∧ HasText fields "method" ∧
        (lookup fields "id" = none ∨ lookup fields "id" = some .null)
  /-- A response is an object as it should be, or listed. -/
  response : ∀ payload, (∃ r, Message.parse payload = .ok (.response r)) ↔
    (∃ fields, Json.parse payload = .ok (.object fields) ∧
      lookup fields "method" = none ∧ HasText fields "jsonrpc" ∧
        (∃ id, lookup fields "id" = some id) ∧ FitsError (lookup fields "error")) ∨
      ∃ r, ListsText payload r
  error : ∀ payload, (∃ fault, Message.parse payload = .error fault) ↔
    (∀ m, ¬ TellsText payload m) ∧ ∀ r, ¬ ListsText payload r
  /-- What is listed is all that is not as it should be. -/
  lawful : ∀ payload, Lawful payload ↔ ∀ r, ¬ ListsText payload r
  /-- A response that is listed reaches whoever has its id, like any other. -/
  listed : ∀ payload r, ListsText payload r → ∀ c : Client η,
    c.accept payload = acceptResponse { c with received := c.received ++ [payload] } r
  /-- An end that the other end decided is the outcome of a response with the id of the call,
  which a payload told or listed. -/
  ends : ∀ n o, (ran events).outcome? n = some o → isServerDecided o = true →
    ∃ payload ∈ (ran events).received, ∃ r shape,
      (TellsText payload (.response r) ∨ ListsText payload r) ∧
        r.id = .nat (wireId n) ∧ o = r.outcome shape

/-- Which texts are messages and of which kind, and that only responses among them end calls. The
kinds are put in terms of the fields that an object has to have; `listed` and `ends` say what a
listed response then does. -/
theorem classified (events : List (Event η)) : Classified events := by
  refine
    { read := fun payload m => Message.parse_eq_ok_iff
      request := fun payload => ?_, notification := fun payload => ?_
      response := fun payload => ?_
      error := fun payload => exists_error_iff
      lawful := fun payload => lawful_iff
      listed := fun payload r hlists c => ?_
      ends := fun n o ho hdecided => ?_ }
  · simp only [exists_parse_request_iff, exists_request_iff]
  · simp only [exists_parse_notification_iff, exists_notification_iff]
  · simp only [exists_parse_response_iff, exists_response_iff]
  · have hread := parse_response_iff.mpr (.inr hlists)
    rw [accept, hread]
  · obtain ⟨r, shape, ⟨payload, hmem, hparse, hid⟩, houtcome⟩ :=
      exists_answerAmong events ho hdecided
    exact ⟨payload, hmem, r, shape, parse_response_iff.mp hparse, hid, houtcome⟩

/-- A response to the first call, as an array of its values. -/
def listing : List Char := (Json.array [.string version, .nat 1, .nat 7, .null]).print

/-- A client makes a call and receives the array. -/
def hearing : List (Event Unit) :=
  [.request "m" none .any, .sendNext, .write none,
    .deliver (Text.encode (Framing.frame listing)), .receiveNext, .resume 1]

/-- The array of the values of a response is not an object, so it should be an error that nobody
hears of. It is read as the response, and the call with its id ends with its result. -/
theorem listed_completes :
    Json.parse listing = .ok (.array [.string version, .nat 1, .nat 7, .null]) ∧
      (∀ m, ¬ TellsText listing m) ∧ ¬ Lawful listing ∧
      Message.parse listing = .ok (.response (.success (.nat 1) (.nat 7))) ∧
      (ran hearing).outcome? 1 = some (.ok (.nat 7)) ∧ (ran hearing).pending = [] := by
  have hparse : Json.parse listing = .ok (.array [.string version, .nat 1, .nat 7, .null]) := by
    decide +kernel
  have hlists : ListsText listing (.success (.nat 1) (.nat 7)) :=
    ⟨_, hparse, .response (r := .success (.nat 1) (.nat 7)) rfl (.inl .null)⟩
  refine ⟨hparse, fun m htells => ?_, fun hlawful => ?_, ?_, by decide +kernel, by decide +kernel⟩
  · exact htells.not_listsText _ hlists
  · exact lawful_iff.mp hlawful _ hlists
  · exact parse_response_iff.mpr (.inr hlists)

end LanguageClient.Rpc
