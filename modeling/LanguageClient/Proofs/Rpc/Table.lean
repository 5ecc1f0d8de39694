import LanguageClient.Rpc.Run

/-!
# `LanguageClient.Proofs.Rpc.Table`: the calls of a client and its table

A client keeps all calls in order and, in a table, the numbers of those to which a
response would go. This module says what may become of one call, and what holds of the
calls and the table between two steps.

* `Call.Later`: what a call may become. Its number and shape stay, and so do a mailbox
  that is not empty and an end.
* `Call.Settled`: an end is decided by what is in the mailbox.
* `Client.Sound`: calls are numbered from one, the table holds each number once, and a
  call in the table has an empty mailbox and no end.
* `acceptResponse_of_mem` / `acceptResponse_of_not_mem`: whom a response reaches.

Numbers are ids as long as there are fewer than 2^64 calls: then `wireId` is the
identity on them, and no two calls share one (`sharing_eq_nil`).
-/

set_option autoImplicit false

namespace LanguageClient.Rpc

variable {η : Type}

/-! ### One call -/

/-- What a call may become. -/
structure Call.Later (before after : Call) : Prop where
  number : after.number = before.number
  shape : after.shape = before.shape
  mailbox : before.mailbox ≠ .empty → after.mailbox = before.mailbox
  progress : ∀ o, before.progress = .ended o → after.progress = .ended o

namespace Call

/-- A call that is left alone is a later one of itself. -/
theorem Later.refl (c : Call) : c.Later c := ⟨rfl, rfl, fun _ => rfl, fun _ h => h⟩

/-- What may become of a call in two steps may become of it in one. -/
theorem Later.trans {a b c : Call} (hab : a.Later b) (hbc : b.Later c) : a.Later c := by
  refine ⟨hbc.number.trans hab.number, hbc.shape.trans hab.shape, fun h => ?_, fun o h => ?_⟩
  · have hb := hab.mailbox h
    rw [hbc.mailbox (hb ▸ h), hb]
  · exact hbc.progress o (hab.progress o h)

/-- A caller waits exactly as long as its call goes on. -/
theorem isWaiting_iff {c : Call} : c.isWaiting = true ↔ c.progress = .waiting := by
  unfold isWaiting
  cases c.progress with
  | waiting => simp
  | ended o => simp
  | abandoned => simp

/-- An outcome is there exactly if the call has ended with it. A call that waits has none, nor has
one whose caller has gone away. -/
theorem outcome?_eq_some {c : Call} {o : Outcome} :
    c.outcome? = some o ↔ c.progress = .ended o := by
  unfold outcome?
  cases c.progress with
  | waiting => simp
  | ended o => simp
  | abandoned => simp

/-- A caller who still waits has no end that could be lost, so its progress may be set at will. -/
theorem later_of_waiting {c : Call} (h : c.isWaiting = true) (p : Progress) :
    c.Later { c with progress := p } := by
  refine ⟨rfl, rfl, fun _ => rfl, fun o ho => ?_⟩
  rw [isWaiting_iff.mp h] at ho
  exact nomatch ho

/-- A response changes an empty mailbox only. -/
theorem later_fill (r : Response) (c : Call) : c.Later (c.fill r) := by
  unfold fill
  split
  · rename_i h
    exact ⟨rfl, rfl, fun hne => absurd h.2 hne, fun _ ho => ho⟩
  · exact .refl c

/-- The client gives up a call by its mailbox, and changes an empty mailbox only. So a response that
has come before still counts. -/
theorem later_giveUp (c : Call) : c.Later c.giveUp := by
  unfold giveUp
  split
  · rename_i h
    exact ⟨rfl, rfl, fun hne => absurd h hne, fun _ ho => ho⟩
  · exact .refl c

/-- A caller who looks ends its own call, if there is something to look at. -/
theorem later_resume (c : Call) : c.Later c.resume := by
  unfold resume
  split
  · rename_i h
    split
    · exact .refl c
    · exact later_of_waiting h _
    · exact later_of_waiting h _
  · exact .refl c

/-- A caller whose time is over ends its own call, unless there is something to look at, which then
counts instead. -/
theorem later_expire (c : Call) : c.Later c.expire := by
  unfold expire
  split
  · rename_i h
    exact later_of_waiting h.1 _
  · exact later_resume c

/-- A caller who goes away leaves a call that was waiting. What the mailbox holds stays in it. -/
theorem later_abandon (c : Call) : c.Later c.abandon := by
  unfold abandon
  split
  · rename_i h
    exact later_of_waiting h _
  · exact .refl c

/-- The caller does not touch the mailbox. -/
theorem mailbox_resume (c : Call) : c.resume.mailbox = c.mailbox := by
  unfold resume
  split
  · split <;> simp_all
  · rfl

/-- A caller whose time is over does not touch the mailbox. -/
theorem mailbox_expire (c : Call) : c.expire.mailbox = c.mailbox := by
  unfold expire
  split
  · rfl
  · exact mailbox_resume c

/-- A caller who goes away does not touch the mailbox, so a response may still be put into it. -/
theorem mailbox_abandon (c : Call) : c.abandon.mailbox = c.mailbox := by
  unfold abandon
  split <;> rfl

/-- A caller who finds nothing goes on waiting. -/
theorem resume_of_empty {c : Call} (h : c.mailbox = .empty) : c.resume = c := by
  unfold resume
  split
  · simp only [h]
  · rfl

/-- A caller whose time is over either has gone away, or is told so. -/
theorem outcome?_expire {c : Call} (hempty : c.mailbox = .empty) (hnone : c.outcome? = none) :
    c.expire.outcome? = none ∨ c.expire.outcome? = some (.error .timeout) := by
  unfold expire
  split
  · exact .inr rfl
  · exact .inl (by rw [resume_of_empty hempty, hnone])

/-- A caller who goes away gets no outcome. -/
theorem outcome?_abandon {c : Call} (hnone : c.outcome? = none) : c.abandon.outcome? = none := by
  unfold abandon
  split
  · rfl
  · exact hnone

/-- A mailbox that has been filled was empty before, or holds what it held. -/
theorem filled_of_fill {c : Call} {r r' : Response} (h : (c.fill r).mailbox = .filled r') :
    c.mailbox = .filled r' ∨ r' = r := by
  unfold fill at h
  split at h
  · exact .inr (Mailbox.filled.inj h).symm
  · exact .inl h

/-- To give up a call puts no response into its mailbox. -/
theorem filled_of_giveUp {c : Call} {r : Response} (h : c.giveUp.mailbox = .filled r) :
    c.mailbox = .filled r := by
  unfold giveUp at h
  split at h
  · exact nomatch h
  · exact h

/-- How an end fits the mailbox: a response decides it alone, and without one it is the
client that gave up. -/
def Settled (c : Call) : Prop :=
  ∀ o, c.progress = .ended o →
    match c.mailbox with
    | .filled r => o = r.outcome c.shape
    | .givenUp => o = .error .cancelled
    | .empty => o = .error .timeout ∨ o = .error .disconnected

/-- A call without an end is settled: there is nothing to decide yet. -/
theorem settled_of_open {c : Call} (h : c.outcome? = none) : c.Settled := by
  intro o ho
  rw [outcome?_eq_some.mpr ho] at h
  exact nomatch h

/-- A caller who looks takes the outcome that the mailbox has for it. One whose mailbox is empty
goes on waiting, and one that has ended does not look again. -/
theorem settled_resume {c : Call} (h : c.Settled) : c.resume.Settled := by
  unfold resume
  split
  · split
    · exact h
    · rename_i r hr
      intro o ho
      cases ho
      simp only [hr]
    · rename_i hr
      intro o ho
      cases ho
      simp only [hr]
  · exact h

/-- A caller whose time is over looks first, and only for an empty mailbox is the outcome the
timeout. So a response that has come is never passed over. -/
theorem settled_expire {c : Call} (h : c.Settled) : c.expire.Settled := by
  unfold expire
  split
  · rename_i hempty
    intro o ho
    cases ho
    simp only [hempty.2, true_or]
  · exact settled_resume h

/-- A caller who goes away has no end to be decided. -/
theorem settled_abandon {c : Call} (h : c.Settled) : c.abandon.Settled := by
  unfold abandon
  split
  · exact settled_of_open rfl
  · exact h

/-- A response reaches only a caller who waits, so no end is changed by it. -/
theorem settled_fill {c : Call} (h : c.Settled) (r : Response) : (c.fill r).Settled := by
  unfold fill
  split
  · rename_i hwaits
    refine settled_of_open ?_
    simp only [outcome?, isWaiting_iff.mp hwaits.1]
  · exact h

/-- To give up an open call leaves it open until its caller looks. -/
theorem settled_giveUp {c : Call} (h : c.outcome? = none) : c.giveUp.Settled := by
  unfold giveUp
  split
  · exact settled_of_open h
  · exact settled_of_open h

end Call

/-! ### All calls -/

namespace Client

/-- Calls are numbered from one, in order. -/
def Numbered (c : Client η) : Prop := c.calls.map Call.number = List.range' 1 c.calls.length

/-- Every caller and every response finds its call; what waits in the table is open. -/
structure Sound (c : Client η) : Prop where
  numbers : c.Numbered
  nodup : c.pending.Nodup
  known : ∀ n ∈ c.pending, ∃ call ∈ c.calls, call.number = n
  waits : ∀ call ∈ c.calls, call.number ∈ c.pending →
    call.mailbox = .empty ∧ call.outcome? = none
  settled : ∀ call ∈ c.calls, call.Settled

/-- Only the calls and the table count. A step that changes neither keeps them sound, whatever it
does to the stream or to the handlers. -/
theorem Sound.congr {c c' : Client η} (h : c.Sound) (hcalls : c'.calls = c.calls)
    (hpending : c'.pending = c.pending) : c'.Sound := by
  refine ⟨?_, ?_, ?_, ?_, ?_⟩
  · rw [Numbered, hcalls]
    exact h.numbers
  · rw [hpending]
    exact h.nodup
  · rw [hcalls, hpending]
    exact h.known
  · rw [hcalls, hpending]
    exact h.waits
  · rw [hcalls]
    exact h.settled

/-- A call that is found is one of the calls, and has the number. -/
theorem mem_of_call? {c : Client η} {n : Nat} {call : Call} (h : c.call? n = some call) :
    call ∈ c.calls ∧ call.number = n := by
  have hnumber := List.find?_some h
  exact ⟨List.mem_of_find?_eq_some h, of_decide_eq_true hnumber⟩

/-- Calls that change keep their numbers, and so their order. -/
theorem Numbered.of_map {c after : Client η} (h : c.Numbered) {g : Call → Call}
    (hcalls : after.calls = c.calls.map g)
    (hg : ∀ call ∈ c.calls, (g call).number = call.number) : after.Numbered := by
  have hnumbers : after.calls.map Call.number = c.calls.map Call.number := by
    rw [hcalls, List.map_map]
    exact List.map_congr_left hg
  rw [Numbered, hnumbers, hcalls, List.length_map, h]

/-- One more call has the next number. -/
theorem Numbered.of_concat {c after : Client η} (h : c.Numbered) {fresh : Call}
    (hcalls : after.calls = c.calls ++ [fresh]) (hnumber : fresh.number = c.calls.length + 1) :
    after.Numbered := by
  rw [Numbered, hcalls, List.length_append, List.length_singleton, List.map_append, h,
    List.range'_concat, List.map_singleton, hnumber, Nat.one_mul, Nat.add_comm]

/-- No number is larger than the number of calls. -/
theorem Numbered.number_le {c : Client η} (h : c.Numbered) {call : Call} (hmem : call ∈ c.calls) :
    call.number ≤ c.calls.length := by
  have hnumber : call.number ∈ List.range' 1 c.calls.length := h ▸ List.mem_map_of_mem hmem
  have hrange := List.mem_range'_1.mp hnumber
  omega

/-- No number in the table is larger than the number of calls, since each of them is that of a
call. -/
theorem Sound.pending_le {c : Client η} (h : c.Sound) {n : Nat} (hn : n ∈ c.pending) :
    n ≤ c.calls.length := by
  obtain ⟨call, hmem, rfl⟩ := h.known n hn
  exact h.numbers.number_le hmem

/-- The number of a call is its place, counted from one. So a number leads to one call at most. -/
theorem Numbered.number_getElem {c : Client η} (h : c.Numbered) {i : Nat}
    (hi : i < c.calls.length) :
    c.calls[i].number = i + 1 := by
  have hmap : (c.calls.map Call.number)[i]? = some c.calls[i].number := by
    rw [List.getElem?_map, List.getElem?_eq_getElem hi, Option.map_some]
  rw [h, List.getElem?_range' hi] at hmap
  have hnumber := Option.some.inj hmap
  omega

/-- A call is the one that is found under its number. Numbers are places, so two calls with one
number would be in one place. -/
theorem Numbered.call?_of_mem {c : Client η} (h : c.Numbered) {call : Call}
    (hmem : call ∈ c.calls) : c.call? call.number = some call := by
  cases hcase : c.call? call.number with
  | none =>
    have hnone := List.find?_eq_none.mp hcase call hmem
    exact absurd (decide_eq_true rfl) hnone
  | some call' =>
    obtain ⟨hmem', hnumber⟩ := mem_of_call? hcase
    obtain ⟨i, hi, rfl⟩ := List.getElem_of_mem hmem
    obtain ⟨j, hj, rfl⟩ := List.getElem_of_mem hmem'
    -- Both numbers are places counted from one, and so the places are equal.
    rw [h.number_getElem hi, h.number_getElem hj] at hnumber
    obtain rfl : j = i := by omega
    rfl

/-- Changing calls without their numbers changes what is found, and not whether: the same call is
found, changed. -/
theorem find?_map_number {calls : List Call} {g : Call → Call}
    (hg : ∀ call ∈ calls, (g call).number = call.number) (n : Nat) :
    (calls.map g).find? (fun call => call.number = n) =
      (calls.find? fun call => call.number = n).map g := by
  induction calls with
  | nil => rfl
  | cons call calls ih =>
    have hcall := hg call List.mem_cons_self
    have hcalls := ih fun call' hmem => hg call' (List.mem_cons_of_mem call hmem)
    rw [List.map_cons, List.find?_cons, List.find?_cons, hcall]
    split
    · rfl
    · exact hcalls

/-- A call that is changed is found changed. Numbers are distinct, so no other call is found under
its number. -/
theorem Numbered.call?_update {c : Client η} (h : c.Numbered) {f : Call → Call}
    (hf : ∀ call, (f call).number = call.number) {call : Call} (hmem : call ∈ c.calls) :
    (c.update call.number f).call? call.number = some (f call) := by
  have hg : ∀ call' : Call,
      (if call'.number = call.number then f call' else call').number = call'.number := by
    intro call'
    split
    · exact hf call'
    · rfl
  have hfind : (c.calls.find? fun call' => call'.number = call.number) = some call :=
    h.call?_of_mem hmem
  rw [update, call?, find?_map_number fun call' _ => hg call', hfind, Option.map_some, if_pos rfl]

/-- To give up no calls changes nothing. -/
theorem giveUp_nil (c : Client η) : c.giveUp [] = c := by
  have hpending : c.pending.filter (fun n => decide (n ∉ [])) = c.pending :=
    List.filter_eq_self.mpr fun n _ => by simp
  have hcalls : (c.calls.map fun call => if call.number ∈ [] then call.giveUp else call) =
      c.calls := by simp
  rw [giveUp, hpending, hcalls]

/-- To give up all calls in the table empties it. -/
theorem pending_giveUp_pending (c : Client η) : (c.giveUp c.pending).pending = [] := by
  simp [giveUp]

/-- A caller who looks into the mailbox touches only calls and the table. So whatever else is known
of a client need not be proved again for a look. -/
theorem look_eq (c : Client η) (number : Nat) (f : Call → Call) :
    ∃ calls pending, calls.length = c.calls.length ∧
      c.look number f = { c with calls, pending } := by
  unfold look settleTable
  split
  · have hupdate : (c.update number f).calls.length = c.calls.length := List.length_map _
    split
    · exact ⟨_, _, (List.length_map _).trans hupdate, rfl⟩
    · exact ⟨_, _, (List.length_map _).trans hupdate, rfl⟩
    · exact ⟨_, c.pending, hupdate, rfl⟩
  · exact ⟨c.calls, c.pending, rfl, rfl⟩

/-- A number that 64 bits hold is its own id. -/
theorem wireId_eq {number : Nat} (h : number < Nat.pow 2 64) : wireId number = number :=
  Nat.mod_eq_of_lt h

/-- Without a wrap of the counter the numbers in the table are the ids on the wire. So the table can
be searched by numbers, as the statements about it have it. -/
theorem Sound.wireId_eq {c : Client η} (h : c.Sound) (hfew : c.calls.length < Nat.pow 2 64)
    {n : Nat} (hn : n ∈ c.pending) : wireId n = n :=
  Client.wireId_eq (Nat.lt_of_le_of_lt (h.pending_le hn) hfew)

/-- Without a wrap of the counter no two numbers share an id. -/
theorem sharing_eq_nil {c : Client η} (h : c.Sound) (hfew : c.calls.length < Nat.pow 2 64)
    {number : Nat} (hnumber : number < Nat.pow 2 64) : c.sharing number = [] := by
  rw [sharing, List.filter_eq_nil_iff]
  intro n hn
  rw [decide_eq_true_iff, h.wireId_eq hfew hn, wireId_eq hnumber]
  exact fun hshared => hshared.1 hshared.2

/-- The request of the next call. -/
def nextRequest (c : Client η) (method : String) (params : Option Json) : Message :=
  .request { id := .nat (c.calls.length + 1), method, params }

/-- A client that has entered one more call into its table and queued the request. -/
def entering (c : Client η) (method : String) (params : Option Json) (shape : Shape) :
    Client η :=
  { c with
    calls := c.calls ++ [⟨c.calls.length + 1, shape, .empty, .waiting⟩]
    pending := c.pending ++ [c.calls.length + 1]
    outbound := c.outbound ++ [c.nextRequest method params]
    accepted := c.accepted ++ [c.nextRequest method params] }

/-- As long as numbers are ids, a call that can be sent is entered under its number and leaves the
others as they are. No earlier call is under that id, so none is pushed out of the table. -/
theorem request_of_running {c : Client η} (h : c.Sound) (hfew : c.calls.length + 1 < Nat.pow 2 64)
    (hrunning : c.dispatcher = .running) (method : String) (params : Option Json)
    (shape : Shape) :
    c.request method params shape = (c.calls.length + 1, c.entering method params shape) := by
  have hwire : wireId (c.calls.length + 1) = c.calls.length + 1 := wireId_eq hfew
  unfold request
  dsimp only
  rw [sharing_eq_nil h (by omega) hfew, giveUp_nil,
    if_neg (by rw [hrunning]; exact fun hended => nomatch hended), hwire]
  rfl

/-- A client whose next call has failed at once. -/
def refusing (c : Client η) (shape : Shape) : Client η :=
  { c with
    calls := c.calls ++ [⟨c.calls.length + 1, shape, .empty, .ended (.error .disconnected)⟩] }

/-- A call that cannot be sent has failed at once, and leaves the others as they are. -/
theorem request_of_ended {c : Client η} (h : c.Sound) (hfew : c.calls.length + 1 < Nat.pow 2 64)
    (hended : c.dispatcher = .ended) (method : String) (params : Option Json) (shape : Shape) :
    c.request method params shape = (c.calls.length + 1, c.refusing shape) := by
  unfold request
  dsimp only
  rw [sharing_eq_nil h (by omega) hfew, giveUp_nil, if_pos hended]
  rfl

/-! ### What arrives -/

/-- A payload is the next thing that the dispatcher takes. -/
def Arrives (c : Client η) (payload : List Char) : Prop :=
  c.dispatcher = .running ∧
    (c.framing.receive (if c.stream.connected then c.stream.incoming else [])).1 =
      .message payload

/-- The next thing that the dispatcher takes is the response to a request that waits. -/
def Answers (c : Client η) (number : Nat) (r : Response) : Prop :=
  number ∈ c.pending ∧
    ∃ payload, c.Arrives payload ∧ Message.parse payload = .ok (.response r) ∧
      r.id = .nat number

/-- A client that has taken a payload off its stream and not looked at it yet. -/
def taking (c : Client η) (framing : Framing) (incoming : List (List Char))
    (payload : List Char) : Client η :=
  { c with framing, stream := { c.stream with incoming }, received := c.received ++ [payload] }

/-- A payload that arrives is accepted, after it was taken off the stream. What is left there is of
no concern to the lemmas that use this. -/
theorem receiveNext_of_arrives {c : Client η} {payload : List Char} (h : c.Arrives payload) :
    ∃ framing incoming, c.receiveNext =
      ({ c with framing, stream := { c.stream with incoming } } : Client η).accept payload := by
  obtain ⟨hrunning, hmessage⟩ := h
  unfold receiveNext
  rw [if_neg (by rw [hrunning]; exact fun hended => nomatch hended)]
  dsimp only
  generalize c.framing.receive (if c.stream.connected then c.stream.incoming else []) = taken at *
  obtain ⟨reception, framing, rest⟩ := taken
  obtain rfl : reception = .message payload := hmessage
  exact ⟨framing, rest, rfl⟩

/-- A dispatcher that has not ended runs. -/
theorem running_of_ne_ended {c : Client η} (h : c.dispatcher ≠ .ended) :
    c.dispatcher = .running := by
  cases hcase : c.dispatcher with
  | running => rfl
  | ended => exact absurd hcase h

/-- Taking a chunk changes what there is to take, and perhaps shows the end. All else about the
stream stays, and nothing more is needed here. -/
theorem exists_take (s : Stream) :
    ∃ incoming connected, s.take.2 = { s with incoming, connected } := by
  unfold Stream.take
  split
  · exact ⟨s.incoming, s.connected, rfl⟩
  · split
    · rename_i chunk rest hincoming
      exact ⟨rest, s.connected, rfl⟩
    · split
      · exact ⟨s.incoming, s.connected, rfl⟩
      · exact ⟨s.incoming, false, rfl⟩

/-- A payload arrives, or the dispatcher goes on without one, or it ends. The proofs about what is
read split on this, so that they do not look into the framing. -/
theorem receiveNext_cases (c : Client η) :
    (∃ payload, c.Arrives payload) ∨
    ∃ framing incoming connected notices,
      let waiting : Client η :=
        { c with framing, notices, stream := { c.stream with incoming, connected } }
      c.receiveNext = waiting ∨ c.receiveNext = waiting.endDispatch := by
  by_cases harrives : ∃ payload, c.Arrives payload
  · exact .inl harrives
  refine .inr ?_
  unfold receiveNext
  split
  · exact ⟨c.framing, c.stream.incoming, c.stream.connected, c.notices, .inl rfl⟩
  · -- The dispatcher runs, and what the framing makes of the stream decides.
    rename_i hnot
    have hrunning := running_of_ne_ended hnot
    dsimp only
    generalize hreceive :
      c.framing.receive (if c.stream.connected then c.stream.incoming else []) = taken
    obtain ⟨reception, framing, rest⟩ := taken
    cases reception with
    | message payload =>
      exact absurd ⟨payload, hrunning, congrArg Prod.fst hreceive⟩ harrives
    | failed e =>
      exact ⟨framing, rest, c.stream.connected, c.notices ++ [lost e.message], .inr rfl⟩
    | exhausted =>
      -- The framing has no complete message, so the next portion of the stream decides.
      dsimp only
      obtain ⟨incoming, connected, htake⟩ := exists_take { c.stream with incoming := rest }
      generalize ({ c.stream with incoming := rest } : Stream).take = taken at htake ⊢
      obtain ⟨what, stream⟩ := taken
      obtain rfl : stream = { c.stream with incoming, connected } := htake
      cases what with
      | ended => exact ⟨framing, incoming, connected, _, .inr rfl⟩
      | waiting => exact ⟨framing, incoming, connected, c.notices, .inl rfl⟩
      | chunk text => exact ⟨framing, incoming, connected, c.notices, .inl rfl⟩

/-- An id on the wire names one number below 2^64. So two responses with the same number have the
same id, and it can be compared as JSON. -/
theorem eq_nat_of_word64? {id : Json} {n : Nat} (h : word64? id = some n) : id = .nat n := by
  unfold word64? at h
  split at h
  · rename_i i
    split at h
    · rename_i hrange
      have hn : i.toNat = n := Option.some.inj h
      rw [← hn]
      show Json.number (.int i) = .number (.int (i.toNat : Int))
      rw [Int.toNat_of_nonneg hrange.1]
    · exact nomatch h
  · exact nomatch h

/-- A number below 2^64 is read back from its id on the wire. -/
theorem word64?_nat {n : Nat} (h : n < Nat.pow 2 64) : word64? (.nat n) = some n := by
  have hrange : 0 ≤ (n : Int) ∧ (n : Int) < Int.pow 2 64 := by
    refine ⟨Int.natCast_nonneg n, ?_⟩
    have hpow : Int.pow 2 64 = ((Nat.pow 2 64 : Nat) : Int) := by decide
    rw [hpow]
    omega
  show (if 0 ≤ (n : Int) ∧ (n : Int) < Int.pow 2 64 then some (n : Int).toNat else none) = some n
  rw [if_pos hrange, Int.toNat_natCast]

/-- A response goes to the number that is its id. The table is searched by ids, and the first that
fits is the only one. -/
theorem acceptResponse_of_mem {c : Client η} (h : c.Sound) (hfew : c.calls.length < Nat.pow 2 64)
    {number : Nat} {r : Response} (hmem : number ∈ c.pending) (hid : r.id = .nat number) :
    c.acceptResponse r =
      { c.update number (Call.fill r) with pending := c.pending.erase number } := by
  have hnumber : number < Nat.pow 2 64 := Nat.lt_of_le_of_lt (h.pending_le hmem) hfew
  -- The search finds the number, since ids are numbers here.
  have hfind : c.pending.find? (fun n => wireId n = number) = some number := by
    cases hcase : c.pending.find? (fun n => wireId n = number) with
    | none =>
      have hnone := List.find?_eq_none.mp hcase number hmem
      rw [h.wireId_eq hfew hmem] at hnone
      exact absurd (decide_eq_true rfl) hnone
    | some n =>
      have hdecide := List.find?_some hcase
      have hn : wireId n = number := of_decide_eq_true hdecide
      rw [h.wireId_eq hfew (List.mem_of_find?_eq_some hcase)] at hn
      rw [hn]
  simp only [acceptResponse, hid, word64?_nat hnumber, Option.bind_some, hfind]

/-- A response to nobody in the table changes nothing. Its id may be that of a call that has ended,
or of none; with fewer than 2^64 calls no two ids are the same. -/
theorem acceptResponse_of_not_mem {c : Client η} (h : c.Sound)
    (hfew : c.calls.length < Nat.pow 2 64) {r : Response}
    (hid : ∀ n ∈ c.pending, r.id ≠ .nat n) : c.acceptResponse r = c := by
  have hnone : ((word64? r.id).bind fun id => c.pending.find? fun n => wireId n = id) = none := by
    cases hword : word64? r.id with
    | none => rfl
    | some id =>
      rw [Option.bind_some, List.find?_eq_none]
      intro n hn heq
      rw [h.wireId_eq hfew hn] at heq
      exact hid n hn (of_decide_eq_true heq ▸ eq_nat_of_word64? hword)
  simp only [acceptResponse, hnone]

/-- A response to nobody in the table leaves all but the stream and the record of what was received.
It is passed over, so that a late one does no harm to those who wait. -/
theorem receiveNext_of_foreign {c : Client η} (h : c.Sound) (hfew : c.calls.length < Nat.pow 2 64)
    {payload : List Char} {r : Response} (harrives : c.Arrives payload)
    (hparse : Message.parse payload = .ok (.response r))
    (hid : ∀ n ∈ c.pending, r.id ≠ .nat n) :
    ∃ framing incoming, c.receiveNext = c.taking framing incoming payload := by
  obtain ⟨framing, incoming, heq⟩ := receiveNext_of_arrives harrives
  have hsound : (c.taking framing incoming payload).Sound := h.congr rfl rfl
  refine ⟨framing, incoming, ?_⟩
  rw [heq, accept, hparse]
  exact acceptResponse_of_not_mem hsound hfew hid

/-- A response to a call in the table goes into its mailbox and takes it out of the table. So it is
answered once, and a second response is one to nobody. -/
theorem receiveNext_of_own {c : Client η} (h : c.Sound) (hfew : c.calls.length < Nat.pow 2 64)
    {payload : List Char} {r : Response} (harrives : c.Arrives payload)
    (hparse : Message.parse payload = .ok (.response r)) {n : Nat} (hn : n ∈ c.pending)
    (hid : r.id = .nat n) :
    ∃ framing incoming, c.receiveNext =
      { (c.taking framing incoming payload).update n (Call.fill r) with
        pending := c.pending.erase n } := by
  obtain ⟨framing, incoming, heq⟩ := receiveNext_of_arrives harrives
  have hsound : (c.taking framing incoming payload).Sound := h.congr rfl rfl
  refine ⟨framing, incoming, ?_⟩
  rw [heq, accept, hparse]
  exact acceptResponse_of_mem hsound hfew hn hid

end Client

end LanguageClient.Rpc
