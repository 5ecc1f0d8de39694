import LanguageClient.LanguageServer.Run
import LanguageClient.Proofs.LanguageServer.Documents
import LanguageClient.Proofs.Rpc.Record

/-!
# `LanguageClient.Proofs.LanguageServer.Handshake`: the messages of a client

Which messages a language server's client queues, and when. Those of the handshake, and
the answers to the server, are not about documents; `openDocument` and `closeDocument`
queue one each, if anything can be queued.

* `Handshaking`: how a handshake that waits can go on.
* `openDocument_eq` / `closeDocument_eq`: what a client does about a document.
-/

set_option autoImplicit false

namespace LanguageClient

/-- What happens by itself is not the owner's doing. -/
theorem Rpc.directs_of_isAmbient {η : Type} {e : Rpc.Event η} (h : e.isAmbient = true) :
    e.directs = false := by
  cases e with
  | request | notify | onNotification | onRequest => exact nomatch h
  | _ => rfl

namespace LanguageServer

variable {η : Type}

namespace Client

/-- A client that has queued one more message. -/
def queueing (c : Client η) (m : Rpc.Message) : Client η := { c with rpc := c.rpc.queue m }

/-- A notification is queued unless the dispatcher has ended. It needs no answer, so there is
nothing else to it. -/
theorem notify_eq (c : Client η) (method : String) (params : Option Json) :
    c.notify method params =
      if c.rpc.dispatcher = .ended then .error (.call .disconnected)
      else .ok (c.queueing (.notification { method, params })) := by
  unfold notify Rpc.Client.notify
  by_cases hended : c.rpc.dispatcher = .ended
  · rw [if_pos hended, if_pos hended]
  · rw [if_neg hended, if_neg hended]
    rfl

/-- A client that has shaken hands tells of an opened document with one message. A URI that is no
reference would be refused before. -/
theorem openDocument_eq {c : Client η} (h : c.initialized = true) {d : Document}
    (huri : Uri.isReference d.uri.toList = true) :
    c.openDocument d =
      if c.rpc.dispatcher = .ended then .error (.call .disconnected)
      else .ok (c.queueing (didOpen d)) := by
  rw [openDocument, tell, if_neg (by rw [h]; exact fun hnot => hnot rfl), if_pos huri, notify_eq]
  rfl

/-- A client that has shaken hands tells of a closed document with one message. A URI that is no
reference would be refused before. -/
theorem closeDocument_eq {c : Client η} (h : c.initialized = true) {uri : String}
    (huri : Uri.isReference uri.toList = true) :
    c.closeDocument uri =
      if c.rpc.dispatcher = .ended then .error (.call .disconnected)
      else .ok (c.queueing (didClose uri)) := by
  rw [closeDocument, tell, if_neg (by rw [h]; exact fun hnot => hnot rfl), if_pos huri, notify_eq]
  rfl

end Client

open Client

/-! ### The handshake -/

/-- The notification that ends the handshake. -/
def initializedMessage : Rpc.Message :=
  .notification { method := "initialized", params := some (.object []) }

/-- How a handshake that waits can go on: it waits, it fails without another message, or it
comes to its end with one, and then more can be queued. -/
inductive Handshaking (c : Client η) : Option Answer × Client η → Prop where
  | waits {after : Client η} (call : Nat) (activity : after.activity = .initializing call)
      (accepted : after.rpc.accepted = c.rpc.accepted) : Handshaking c (none, after)
  | fails {after : Client η} (e : Failure) (accepted : after.rpc.accepted = c.rpc.accepted) :
      Handshaking c (some (.failed e), after)
  | ends {after : Client η} (result : Json) (initialized : after.initialized = true)
      (running : after.rpc.dispatcher = .running)
      (accepted : after.rpc.accepted = c.rpc.accepted ++ [initializedMessage]) :
      Handshaking c (some (.initialized result), after)

/-- A handshake that waits goes on in one of the three ways. Only the end of it queues a message,
and then the dispatcher has not ended. -/
theorem handshaking_proceed {c : Client η} {call : Nat} (h : c.activity = .initializing call) :
    Handshaking c c.proceed := by
  unfold proceed
  rw [h]
  dsimp only
  cases c.rpc.outcome? call with
  | none => exact .waits call h rfl
  | some o =>
    cases o with
    | error e => exact .fails _ rfl
    | ok result =>
      dsimp only [afterInitialize]
      rw [notify_eq]
      -- The answer is good, and `initialized` is to be sent; this fails if the connection is gone.
      by_cases hended : c.rpc.dispatcher = .ended
      · rw [if_pos hended]
        exact .fails _ rfl
      · rw [if_neg hended]
        exact .ends result rfl (Rpc.Client.running_of_ne_ended hended) rfl

/-- A caller who looks into the mailbox queues nothing. -/
theorem accepted_look (c : Rpc.Client η) (number : Nat) (f : Rpc.Call → Rpc.Call) :
    (c.look number f).accepted = c.accepted := by
  obtain ⟨calls, pending, -, heq⟩ := c.look_eq number f
  rw [heq]

/-- A handshake goes on in the same way from a client that has queued the same messages. So events
of the connection that queue nothing can be left out. -/
theorem Handshaking.of_accepted {c c' : Client η} {progress : Option Answer × Client η}
    (h : Handshaking c' progress) (hsame : c'.rpc.accepted = c.rpc.accepted) :
    Handshaking c progress := by
  cases h with
  | waits call activity accepted => exact .waits call activity (accepted.trans hsame)
  | fails e accepted => exact .fails e (accepted.trans hsame)
  | ends result initialized running accepted =>
    exact .ends result initialized running (hsame ▸ accepted)

/-- A handshake goes on in the same way if the caller looks for the answer first. -/
theorem handshaking_resume {c : Client η} {call : Nat} (h : c.activity = .initializing call) :
    Handshaking c c.resume := by
  have hproceed : Handshaking { c with rpc := c.rpc.resume call }
      ({ c with rpc := c.rpc.resume call } : Client η).proceed := handshaking_proceed h
  have hresume : c.resume = ({ c with rpc := c.rpc.resume call } : Client η).proceed := by
    rw [resume, awaited?, h]
  rw [hresume]
  exact hproceed.of_accepted (accepted_look c.rpc call Rpc.Call.resume)

/-- A handshake goes on in the same way if its time runs out first. -/
theorem handshaking_expire {c : Client η} {call : Nat} (h : c.activity = .initializing call) :
    Handshaking c c.expire := by
  have hproceed : Handshaking { c with rpc := c.rpc.expire call }
      ({ c with rpc := c.rpc.expire call } : Client η).proceed := handshaking_proceed h
  have hexpire : c.expire = ({ c with rpc := c.rpc.expire call } : Client η).proceed := by
    rw [expire, h]
  rw [hexpire]
  exact hproceed.of_accepted (accepted_look c.rpc call Rpc.Call.expire)

/-- A call queues at most its request, which says nothing about documents. It queues nothing if the
dispatcher has ended. -/
theorem quiet_request {c : Rpc.Client η} (h : Quiet c.accepted) (method : String)
    (params : Option Json) (shape : Shape) : Quiet (c.request method params shape).2.accepted := by
  unfold Rpc.Client.request
  dsimp only
  split
  · exact h
  · refine Quiet.append h (?_ : Quiet [.request _])
    intro m hm
    rw [List.mem_singleton.mp hm]
    rfl

/-- A handshake begins without a message about documents: the first message is its request, if there
is one at all. -/
theorem handshaking_handshake {c : Client η} (hnew : c.initialized = false)
    (hquiet : Quiet c.rpc.accepted) (rootUri : Option String) :
    ∃ begun : Client η, Quiet begun.rpc.accepted ∧ Handshaking begun (c.handshake rootUri) := by
  unfold handshake
  rw [if_neg (by rw [hnew]; exact nofun)]
  split
  · exact ⟨c, hquiet, .fails _ rfl⟩
  · exact ⟨_, quiet_request hquiet "initialize" _ _, handshaking_proceed rfl⟩

end LanguageServer

end LanguageClient
