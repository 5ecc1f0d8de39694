import LanguageClient.Proofs.Framing.Conservation
import LanguageClient.Proofs.Rpc.Course
import LanguageClient.Proofs.Text.Damage

/-!
# `LanguageClient.Proofs.Rpc.Intake`: from bytes that come in to payloads that are taken

Bytes come in whenever the other end writes some, and the dispatcher looks for the next
payload between other things. A look that finds none is given up: whatever had been read stays
in the framing, so the next look goes on from there, and nothing that happens in between
matters. `Intake` says where everything is that has come in.

* `intake_run`: in every run, what has come in is, in order, the payloads that were taken, the
  framing, the chunks of the stream and the unfinished character of the decoder.
* `received_prefix_bodies`: the payloads that were taken are the first messages of what has come in.
* `arriving?_of_running`: as long as the dispatcher runs and there is no fault, the next look
  takes the next message, if it is complete, and else nothing.
* `running_receiveNext`: such a look ends the dispatcher only if no more can come in.
-/

set_option autoImplicit false

namespace LanguageClient

open Text

/-! ### Calls without a fault -/

namespace Framing

/-- A longer text has the same messages, and perhaps more. What has been taken is therefore never
taken back by what comes in later. -/
theorem bodies_prefix (s t : List Char) : bodies s <+: bodies (s ++ t) := by
  cases h : faultOf s with
  | none =>
    rw [(read_append h t).1]
    exact List.prefix_append _ _
  | some e =>
    exact (read_append_of_fault h t).1 ▸ List.prefix_rfl

/-- A text with a fault keeps it, however it goes on. -/
theorem faultOf_of_append {s t : List Char} (h : faultOf (s ++ t) = none) : faultOf s = none := by
  cases hs : faultOf s with
  | none => rfl
  | some e => exact nomatch h.symm.trans (read_append_of_fault hs t).2.1

/-- What a framing has read, if it was empty at first: the messages that were returned, those of
the queue and those of the buffer. -/
theorem Yields.read_eq {taken returned : List (List Char)} {f : Framing}
    (h : Yields {} taken returned f) (t : List Char) :
    bodies (taken.flatten ++ t) = returned ++ (f.queue ++ bodies (f.buffer ++ t)) ∧
      faultOf (taken.flatten ++ t) = faultOf (f.buffer ++ t) := by
  obtain ⟨frames, htext, hbodies⟩ := h
  rw [List.nil_append] at htext hbodies
  obtain ⟨hread, hfault, -⟩ := read_frames_append frames (f.buffer ++ t)
  rw [htext, List.append_assoc, hread, hfault, hbodies, List.append_assoc]
  exact ⟨rfl, rfl⟩

/-- Where there is no fault, a call returns the next message, or there is none. The induction
follows the call: it looks into the queue, and if that is empty it reads a chunk and starts over. -/
theorem receive_of_sound {f : Framing} {chunks : List (List Char)}
    (hwait : nextFrame f.buffer = .ok none) (hsound : faultOf (f.buffer ++ chunks.flatten) = none) :
    (f.receive chunks).1 =
      match f.queue ++ bodies (f.buffer ++ chunks.flatten) with
      | body :: _ => .message body
      | [] => .exhausted := by
  fun_induction Framing.receive f chunks with
  | case1 f body queue hqueue =>
    rw [hqueue]
    rfl
  | case2 f hqueue =>
    -- No chunk is left, and the buffer holds no message (`hwait`).
    rw [hqueue, List.flatten_nil, List.append_nil, (read_of_wait hwait).1]
    rfl
  | case3 f chunk chunks body queue hqueue =>
    rw [hqueue]
    rfl
  | case4 f chunk chunks hqueue e after hpush =>
    -- A chunk cannot fail, since a fault in it would be one of the whole text.
    rw [List.flatten_cons, ← List.append_assoc] at hsound
    rw [push_eq, faultOf_of_append hsound] at hpush
    cases hpush
  | case5 f chunk chunks hqueue after hpush ih =>
    -- The messages of the buffer with the chunk move to the queue, and what is left of it waits.
    rw [List.flatten_cons, ← List.append_assoc] at hsound ⊢
    have hchunk := faultOf_of_append hsound
    obtain ⟨hbodies, hfault, -⟩ := read_append hchunk chunks.flatten
    rw [push_eq, hqueue, List.nil_append] at hpush
    obtain ⟨-, rfl⟩ := Prod.mk.inj hpush
    rw [ih (nextFrame_unread hchunk) (hfault ▸ hsound), hqueue, List.nil_append, hbodies]

/-- A call that does not fail leaves an incomplete message in the buffer. All complete ones have
been queued by then, so the buffer is what is left of the text. -/
theorem waits_of_receive {f : Framing} (chunks : List (List Char))
    (hwait : nextFrame f.buffer = .ok none) (hsound : ∀ e, (f.receive chunks).1 ≠ .failed e) :
    nextFrame (f.receive chunks).2.1.buffer = .ok none := by
  fun_induction Framing.receive f chunks with
  -- With something in the queue no chunk is read, and the buffer stays.
  | case1 f body queue hqueue => exact hwait
  | case2 f hqueue => exact hwait
  | case3 f chunk chunks body queue hqueue => exact hwait
  | case4 f chunk chunks hqueue e after hpush => exact absurd rfl (hsound e)
  | case5 f chunk chunks hqueue after hpush ih =>
    -- The chunk had no fault, so what is left of it waits for more.
    refine ih ?_ hsound
    rw [push_eq] at hpush
    obtain ⟨hfault, rfl⟩ := Prod.mk.inj hpush
    exact nextFrame_unread hfault

/-- A call that finds nothing has read all chunks. So the next look finds only what comes after
it. -/
theorem rest_of_exhausted {f : Framing} {chunks : List (List Char)}
    (h : (f.receive chunks).1 = .exhausted) : (f.receive chunks).2.2 = [] := by
  fun_induction Framing.receive f chunks with
  | case1 f body queue hqueue => rfl
  | case2 f hqueue => rfl
  | case3 f chunk chunks body queue hqueue => cases h
  | case4 f chunk chunks hqueue e after hpush => cases h
  | case5 f chunk chunks hqueue after hpush ih => exact ih h

end Framing

/-- Without a chunk, a stream waits as long as more can come in. -/
theorem Stream.take_of_nil {s : Stream} (hconnected : s.connected = true)
    (hincoming : s.incoming = []) :
    s.take = if s.reading then (.waiting, s) else (.ended, { s with connected := false }) := by
  rw [take, if_neg (not_not.mpr hconnected), hincoming]

namespace Rpc

variable {η : Type} {c after : Client η} {e : Event η}

open Client Framing

/-! ### What comes in -/

/-- The bytes that an event brings. -/
def Client.brings (c : Client η) : Event η → List UInt8
  | .deliver portion => if c.stream.reading then portion else []
  | _ => []

/-- Only a portion that arrives brings bytes. -/
theorem brings_of_quiet (hdeliver : ∀ portion, e ≠ .deliver portion) : c.brings e = [] := by
  cases e with
  | deliver portion => exact absurd rfl (hdeliver portion)
  | _ => rfl

/-- The bytes that come in while a client goes on. -/
def Client.inflowIn (c : Client η) : List (Event η) → List UInt8
  | [] => []
  | e :: events => c.brings e ++ (c.step e).inflowIn events

/-- The bytes that have come in in a run. -/
def inflow (events : List (Event η)) : List UInt8 := ({} : Client η).inflowIn events

/-- The event that comes last brings its bytes behind those of the others. The state matters: a
stream that is no longer read lets its bytes go by. -/
theorem inflowIn_concat (c : Client η) (events : List (Event η)) (e : Event η) :
    c.inflowIn (events ++ [e]) = c.inflowIn events ++ (c.run events).brings e := by
  induction events generalizing c with
  | nil => exact List.append_nil _
  | cons first events ih =>
    rw [List.cons_append, inflowIn, ih, inflowIn, List.append_assoc]
    rfl

/-- The event that comes last in a whole run brings its bytes behind those of the others. -/
theorem inflow_concat (events : List (Event η)) (e : Event η) :
    inflow (events ++ [e]) = inflow events ++ (ran events).brings e :=
  inflowIn_concat {} events e

/-- Where the bytes are that have come in, if the dispatcher has read some chunks: their text
is in the payloads that were taken and in the framing, then come the chunks of the stream, and
last what the decoder has left over. Once the dispatcher has ended, chunks may be dropped. -/
structure Client.Intake (c : Client η) (bytes : List UInt8) (taken : List (List Char)) : Prop where
  decoder : c.stream.decoder.buffer = Decoder.left bytes
  yields : Yields {} taken c.received c.framing
  front : taken.flatten <+: Decoder.text bytes
  whole : c.dispatcher = .running →
    taken.flatten ++ c.stream.incoming.flatten = Decoder.text bytes
  waits : c.dispatcher = .running → nextFrame c.framing.buffer = .ok none

/-- A step that neither brings nor takes anything. Only a dispatcher that ends may drop
chunks. -/
structure Client.Leaves (c after : Client η) : Prop where
  decoder : after.stream.decoder = c.stream.decoder
  received : after.received = c.received
  framing : after.framing = c.framing
  running : after.dispatcher = .running →
    c.dispatcher = .running ∧ after.stream.incoming = c.stream.incoming

/-- A step that leaves stream, framing and dispatcher as they are leaves what has come in. -/
theorem Client.Leaves.of_same (decoder : after.stream.decoder = c.stream.decoder)
    (received : after.received = c.received) (framing : after.framing = c.framing)
    (dispatcher : after.dispatcher = c.dispatcher)
    (incoming : after.stream.incoming = c.stream.incoming) : c.Leaves after :=
  ⟨decoder, received, framing, fun hrunning => ⟨dispatcher ▸ hrunning, incoming⟩⟩

/-- With the dispatcher nothing is read any more, so it does not matter what becomes of the
chunks. -/
theorem Client.Leaves.of_ended (decoder : after.stream.decoder = c.stream.decoder)
    (received : after.received = c.received) (framing : after.framing = c.framing)
    (dispatcher : after.dispatcher = .ended) : c.Leaves after :=
  ⟨decoder, received, framing, fun hrunning => nomatch dispatcher.symm.trans hrunning⟩

/-- A dispatcher that stops writes what is queued, and reads nothing. What has come in by then stays
where it is. -/
theorem leaves_stop (c : Client η) : c.Leaves c.stop := by
  unfold stop
  split
  · refine .of_ended ?_ rfl rfl rfl
    show (flush c.stream c.outbound).decoder = _
    cases htakes : c.stream.takes with
    | true => rw [flush_of_takes htakes]
    | false => rw [flush_of_not_takes htakes]
  · exact .of_same rfl rfl rfl rfl rfl

/-- Sending leaves what comes in alone. A stream that refuses the message ends the dispatcher, and
after that nothing is taken any more. -/
theorem leaves_sendNext (c : Client η) : c.Leaves c.sendNext := by
  unfold sendNext
  split
  · cases htakes : c.stream.takes with
    | true =>
      rw [Stream.send_of_takes htakes]
      exact .of_same rfl rfl rfl rfl rfl
    | false =>
      split
      · -- The stream refuses, so the other branch cannot be.
        rename_i hsend
        exact absurd (htakes.symm.trans (Stream.takes_of_send hsend)) Bool.noConfusion
      · exact .of_ended rfl rfl rfl rfl
  · exact .of_same rfl rfl rfl rfl rfl

/-- A look of a caller concerns calls and table only. -/
theorem leaves_look (c : Client η) (number : Nat) (f : Call → Call) :
    c.Leaves (c.look number f) := by
  obtain ⟨calls, pending, -, heq⟩ := c.look_eq number f
  rw [heq]
  exact .of_same rfl rfl rfl rfl rfl

/-- The writer may fail and say so, but it does not touch what comes in. What has arrived by then
can still be read. -/
theorem leaves_write (c : Client η) (refusal : Option String) :
    c.Leaves (c.step (.write refusal)) := by
  simp only [step, withStream, say, Stream.write]
  split
  · split
    · exact .of_same rfl rfl rfl rfl rfl
    · exact .of_same rfl rfl rfl rfl rfl
  · split
    · exact .of_same rfl rfl rfl rfl rfl
    · exact .of_same rfl rfl rfl rfl rfl
  · exact .of_same rfl rfl rfl rfl rfl

/-- Only a portion that arrives and a look for the next payload touch what comes in. All other
events leave stream and framing alone, or end the dispatcher. -/
theorem leaves_step (hdeliver : ∀ portion, e ≠ .deliver portion) (hreceive : e ≠ .receiveNext) :
    c.Leaves (c.step e) := by
  have same : c.Leaves c := .of_same rfl rfl rfl rfl rfl
  cases e with
  | deliver portion => exact absurd rfl (hdeliver portion)
  | receiveNext => exact absurd rfl hreceive
  | request method params shape =>
    simp only [step, request]
    split
    · exact .of_same rfl rfl rfl rfl rfl
    · exact .of_same rfl rfl rfl rfl rfl
  | notify method params =>
    by_cases hended : c.dispatcher = .ended
    · simp only [step, notify, if_pos hended]
      exact same
    · simp only [step, notify, if_neg hended]
      exact .of_same rfl rfl rfl rfl rfl
  | resume number => exact leaves_look c number Call.resume
  | expire number => exact leaves_look c number Call.expire
  | sendNext => exact leaves_sendNext c
  | stop => exact leaves_stop c
  | write refusal => exact leaves_write c refusal
  | endClose =>
    -- Closing closes the stream, but not before the dispatcher has ended.
    simp only [step]
    split
    · rename_i hclose
      exact .of_ended rfl rfl rfl hclose.2
    · exact same
  | forceClose =>
    -- A dispatcher that still runs is cut off here, and one that has ended stays so.
    simp only [step, forceClose]
    split
    · split
      · exact .of_ended rfl rfl rfl rfl
      · rename_i hnot
        exact ⟨rfl, rfl, rfl, fun hrunning => absurd hrunning hnot⟩
    · exact same
  | drop => exact .of_ended rfl rfl rfl rfl
  | finish =>
    -- The stream only stops reading, which a later look will find.
    simp only [step, withStream, say, Stream.finish]
    split
    · exact .of_same rfl rfl rfl rfl rfl
    · exact .of_same rfl rfl rfl rfl rfl
  | breakOff cause =>
    -- The stream only stops reading, too. What has come in before stays there.
    simp only [step, withStream, say, Stream.breakOff]
    split
    · exact .of_same rfl rfl rfl rfl rfl
    · exact .of_same rfl rfl rfl rfl rfl
  | abandon | cancelAll | onNotification | onRequest | beginClose =>
    exact .of_same rfl rfl rfl rfl rfl

/-- Where everything is that has come in stays true over a step that leaves it alone. So only the
steps that bring or read something need a proof of their own. -/
theorem Client.Intake.leaves {bytes : List UInt8} {taken : List (List Char)}
    (h : c.Intake bytes taken) (hleaves : c.Leaves after) : after.Intake bytes taken := by
  refine ⟨hleaves.decoder ▸ h.decoder, ?_, h.front, fun hrunning => ?_, fun hrunning => ?_⟩
  · rw [hleaves.received, hleaves.framing]
    exact h.yields
  · rw [(hleaves.running hrunning).2]
    exact h.whole (hleaves.running hrunning).1
  · rw [hleaves.framing]
    exact h.waits (hleaves.running hrunning).1

/-- A portion is decoded behind what was left over, so its text joins the text before, and an
unfinished character at the end of the portion is left over again. -/
theorem Client.Intake.deliver {bytes : List UInt8} {taken : List (List Char)}
    (h : c.Intake bytes taken) (portion : List UInt8) :
    (c.step (.deliver portion)).Intake (bytes ++ c.brings (.deliver portion)) taken := by
  simp only [step, withStream, say, Stream.deliver, brings]
  split
  · obtain ⟨htext, hleft⟩ := Decoder.text_append bytes portion
    rw [← h.decoder] at htext hleft
    refine ⟨hleft.symm, h.yields, ?_, fun hrunning => ?_, h.waits⟩
    · rw [htext]
      exact h.front.trans (List.prefix_append _ _)
    · rw [htext, ← h.whole hrunning, List.append_assoc]
      exact congrArg _ List.flatten_append
  · -- Nobody reads any more, and the portion is not counted as having come in.
    rw [List.append_nil bytes]
    exact ⟨h.decoder, h.yields, h.front, h.whole, h.waits⟩

/-! ### Looking for the next payload -/

/-- A client that has read some chunks. -/
def Client.reading (c : Client η) (framing : Framing) (incoming : List (List Char)) : Client η :=
  { c with framing, stream := { c.stream with incoming } }

/-- What a look for the next payload does while the dispatcher runs. -/
inductive Look (c after : Client η) : Prop where
  | takes (payload : List Char) (framing : Framing) (rest : List (List Char))
      (receive : c.framing.receive c.stream.incoming = (.message payload, framing, rest))
      (state : after = (c.reading framing rest).accept payload)
  /-- The look is given up, and what has been read is kept. -/
  | waits (framing : Framing)
      (receive : c.framing.receive c.stream.incoming = (.exhausted, framing, []))
      (reading : c.stream.reading = true) (state : after = c.reading framing [])
  /-- A fault, or nothing more can come in. -/
  | loses (reception : Reception) (framing : Framing) (rest : List (List Char)) (connected : Bool)
      (notices : List Notice)
      (receive : c.framing.receive c.stream.incoming = (reception, framing, rest))
      (nothing : reception.returned = [])
      (finished : reception = .exhausted → c.stream.reading = false)
      (state : after =
        ({ c with framing, notices, stream := { c.stream with incoming := rest, connected } } :
          Client η).endDispatch)

/-- A look for the next payload, while the dispatcher runs, takes one, is given up or ends the
dispatcher. What decides is what the framing makes of the chunks that are there. -/
theorem look_receiveNext (horderly : c.Orderly) (hrunning : c.dispatcher = .running) :
    Look c c.receiveNext := by
  have hconnected := horderly.connected hrunning
  have hnot : ¬ c.dispatcher = .ended := fun hended => nomatch hrunning.symm.trans hended
  unfold receiveNext
  rw [if_neg hnot, if_pos hconnected]
  dsimp only
  rcases hreceive : c.framing.receive c.stream.incoming with ⟨reception, framing, rest⟩
  cases reception with
  | message payload => exact .takes payload framing rest hreceive rfl
  | failed e => exact .loses _ framing rest c.stream.connected _ hreceive rfl nofun rfl
  | exhausted =>
    have hrest : rest = [] := by
      have h := rest_of_exhausted (congrArg Prod.fst hreceive)
      rwa [hreceive] at h
    subst hrest
    -- Without a chunk it depends on whether more can come in.
    dsimp only
    rw [Stream.take_of_nil (s := { c.stream with incoming := [] }) hconnected rfl]
    by_cases hreading : c.stream.reading = true
    · rw [if_pos hreading]
      exact .waits framing hreceive hreading rfl
    · rw [if_neg hreading]
      exact .loses .exhausted framing [] false _ hreceive rfl
        (fun _ => Bool.eq_false_iff.mpr hreading) rfl

/-- Handing a payload on concerns the callers, the handlers and the queue. Stream, framing and
dispatcher stay as they are. -/
theorem Client.accept_eq (c : Client η) (payload : List Char) :
    ∃ calls pending outbound accepted handled, c.accept payload =
      { c with
        calls, pending, outbound, accepted, handled
        received := c.received ++ [payload] } := by
  -- A response, a notification, a request, or what is none of them. Each branch sets some of the
  -- five fields.
  unfold accept
  dsimp only
  split
  · unfold acceptResponse
    split
    · exact ⟨_, _, _, _, _, rfl⟩
    · exact ⟨_, _, _, _, _, rfl⟩
  · unfold acceptNotification
    split
    · exact ⟨_, _, _, _, _, rfl⟩
    · exact ⟨_, _, _, _, _, rfl⟩
  · unfold acceptRequest
    split
    · exact ⟨_, _, _, _, _, rfl⟩
    · exact ⟨_, _, _, _, _, rfl⟩
  · exact ⟨_, _, _, _, _, rfl⟩

/-- A look moves what it reads from the stream to the framing and the payloads. Nothing is lost on
the way: what a look that is given up has read is in the framing, and the next look begins there. -/
theorem Client.Intake.receiveNext {bytes : List UInt8} {taken : List (List Char)}
    (h : c.Intake bytes taken) (horderly : c.Orderly) :
    ∃ taken, c.receiveNext.Intake bytes taken := by
  by_cases hended : c.dispatcher = .ended
  · rw [Client.receiveNext, if_pos hended]
    exact ⟨taken, h⟩
  have hrunning := running_of_ne_ended hended
  obtain ⟨more, hmore, hyields⟩ := yields_receive c.framing c.stream.incoming
  have hwait := waits_of_receive c.stream.incoming (h.waits hrunning)
  have hlook := look_receiveNext horderly hrunning
  generalize c.receiveNext = after at hlook ⊢
  -- What the call of the framing reads is the front of the chunks (`more`), so that text moves from
  -- one side of the balance to the other.
  have hwhole : ∀ {rest : List (List Char)}, c.stream.incoming = more ++ rest →
      (taken ++ more).flatten ++ rest.flatten = Decoder.text bytes := by
    intro rest hrest
    rw [← h.whole hrunning, hrest, List.flatten_append, List.flatten_append, List.append_assoc]
  have hfront : (taken ++ more).flatten <+: Decoder.text bytes := ⟨_, hwhole hmore⟩
  refine ⟨taken ++ more, ?_⟩
  cases hlook with
  | takes payload framing rest receive state =>
    rw [receive] at hmore hyields hwait
    obtain ⟨_, _, _, _, _, heq⟩ := (c.reading framing rest).accept_eq payload
    rw [state, heq]
    exact ⟨h.decoder, h.yields.trans hyields, hfront, fun _ => hwhole hmore, fun _ => hwait nofun⟩
  | waits framing receive reading state =>
    -- Nothing was returned, so the payloads taken stay the same and only the framing has moved on.
    rw [receive] at hmore hyields hwait
    have hreturned : Yields {} (taken ++ more) (c.received ++ []) framing := h.yields.trans hyields
    rw [List.append_nil] at hreturned
    rw [state]
    exact ⟨h.decoder, hreturned, hfront, fun _ => hwhole hmore, fun _ => hwait nofun⟩
  | loses reception framing rest connected notices receive nothing finished state =>
    -- Nothing was returned either, and the dispatcher ends with this look.
    rw [receive] at hyields
    have hreturned := h.yields.trans hyields
    rw [nothing, List.append_nil] at hreturned
    rw [state]
    exact ⟨h.decoder, hreturned, hfront, nofun, nofun⟩

/-- Every event keeps the balance of what has come in: a portion adds to it, a look moves things
within it, and the rest leaves it. -/
theorem Client.Intake.step {bytes : List UInt8} {taken : List (List Char)}
    (h : c.Intake bytes taken) (horderly : c.Orderly) (e : Event η) :
    ∃ taken, (c.step e).Intake (bytes ++ c.brings e) taken := by
  by_cases hdeliver : ∃ portion, e = .deliver portion
  · obtain ⟨portion, rfl⟩ := hdeliver
    exact ⟨taken, h.deliver portion⟩
  have hquiet : ∀ portion, e ≠ .deliver portion := fun portion heq => hdeliver ⟨portion, heq⟩
  rw [brings_of_quiet hquiet, List.append_nil]
  by_cases hreceive : e = .receiveNext
  · rw [hreceive]
    exact h.receiveNext horderly
  · exact ⟨taken, h.leaves (leaves_step hquiet hreceive)⟩

/-! ### Runs -/

/-- In every run each byte that has come in is in one place: in a payload that was taken, in the
framing, in a chunk of the stream, or in what the decoder has left over. -/
theorem intake_run (events : List (Event η)) :
    ∃ taken, (ran events).Intake (inflow events) taken := by
  induction events using List.reverseRecOn with
  | nil => exact ⟨[], rfl, .refl {}, List.prefix_rfl, fun _ => rfl, fun _ => rfl⟩
  | append_singleton events e ih =>
    obtain ⟨taken, htaken⟩ := ih
    rw [ran, run_concat, inflow_concat]
    exact htaken.step (orderly_run events) e

/-- The payloads that were taken are the first messages of what has come in, whatever that is. So
nothing is taken twice, out of order or changed, no matter how the looks fell between other
events. -/
theorem received_prefix_bodies (events : List (Event η)) :
    (ran events).received <+: bodies (Decoder.text (inflow events)) := by
  obtain ⟨taken, h⟩ := intake_run events
  obtain ⟨rest, hrest⟩ := h.front
  rw [← hrest, (h.yields.read_eq rest).1]
  exact List.prefix_append _ _

/-- As long as the dispatcher runs and there is no fault, the next look takes the next message that
is complete, or there is none. -/
theorem receive_of_running {events : List (Event η)}
    (hrunning : (ran events).dispatcher = .running)
    (hsound : faultOf (Decoder.text (inflow events)) = none) :
    ((ran events).framing.receive (ran events).stream.incoming).1 =
      match (bodies (Decoder.text (inflow events))).drop (ran events).received.length with
      | body :: _ => .message body
      | [] => .exhausted := by
  obtain ⟨taken, h⟩ := intake_run events
  rw [← h.whole hrunning] at hsound ⊢
  obtain ⟨hbodies, hfault⟩ := h.yields.read_eq (ran events).stream.incoming.flatten
  rw [hbodies, List.drop_left]
  exact receive_of_sound (h.waits hrunning) (hfault ▸ hsound)

/-- What a look would take, in terms of the messages of what has come in: the first that was not
taken yet. -/
theorem arriving?_of_running {events : List (Event η)}
    (hrunning : (ran events).dispatcher = .running)
    (hsound : faultOf (Decoder.text (inflow events)) = none) :
    (ran events).arriving? =
      ((bodies (Decoder.text (inflow events))).drop (ran events).received.length).head? := by
  rw [arriving?, hrunning, if_pos ((orderly_run events).connected hrunning),
    receive_of_running hrunning hsound]
  cases (bodies (Decoder.text (inflow events))).drop (ran events).received.length with
  | nil => rfl
  | cons body rest => rfl

/-- A look ends the dispatcher only at a fault or if no more can come in. As long as the stream is
read and has no fault, a look that finds nothing is only given up. -/
theorem running_receiveNext {events : List (Event η)}
    (hrunning : (ran events).dispatcher = .running)
    (hreading : (ran events).stream.reading = true)
    (hsound : faultOf (Decoder.text (inflow events)) = none) :
    (ran events).receiveNext.dispatcher = .running := by
  have hreceive := receive_of_running hrunning hsound
  cases look_receiveNext (orderly_run events) hrunning with
  | takes payload framing rest receive state =>
    obtain ⟨_, _, _, _, _, heq⟩ := ((ran events).reading framing rest).accept_eq payload
    rw [state, heq]
    exact hrunning
  | waits framing receive reading state =>
    rw [state]
    exact hrunning
  | loses reception framing rest connected notices receive nothing finished state =>
    -- Such a look returned nothing: there was a fault, or nothing was left to read.
    rw [receive] at hreceive
    split at hreceive
    · subst hreceive
      exact nomatch nothing
    · exact absurd (hreading.symm.trans (finished hreceive)) Bool.noConfusion

end Rpc

end LanguageClient
