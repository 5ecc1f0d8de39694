import LanguageClient.Editor.Subscriptions
import LanguageClient.Session.Run

/-!
# `LanguageClient.Extension`: an activation in a host

Activating creates the status item, starts the session and registers the editor
of workspace files with the host. If the editor cannot be registered, the session
is stopped again. Deactivating stops the session first and then releases what was
registered.

- `Host`: what a host has: a registry of editors, and the items created.
- `Extension.activate`: begin an activation, in two halves: `launch` and `equip`.
- `Extension.deactivate`, `Extension.finish`: end it.
-/

set_option autoImplicit false

namespace LanguageClient

/-- On which side of the status bar an item stands. -/
inductive Alignment where
  | left
  deriving DecidableEq, Repr

/-- A status item that was created. -/
structure ItemRequest where
  id : String
  alignment : Alignment
  priority : Int
  deriving DecidableEq, Repr

/-- What a host has. -/
structure Host where
  registry : Editor.Registry := {}
  /-- The status items created so far. -/
  items : List ItemRequest := []
  deriving DecidableEq, Repr

/-- An activation. -/
structure Extension where
  session : Session
  subscriptions : Editor.Subscriptions := {}

namespace Extension

/-- The status item of an activation. -/
def item : ItemRequest := ⟨"beef-lsp", .left, 2⟩

/-- Why an activation fails. -/
inductive Failure where
  | session (cause : SessionError)
  | registration (cause : Editor.RegistrationError)
  deriving DecidableEq, Repr

/-- The text of a failure. -/
def Failure.message : Failure → String
  | .session cause => "Session error: " ++ cause.message
  | .registration cause => "Registration error: " ++ cause.message

/-- What comes of an activation: an extension, or a failure and the session that
was stopped because of it. -/
inductive Activation where
  | active (e : Extension)
  | failed (cause : Failure) (s : Session)

/-- The first half of an activation: create the status item and start the
session. -/
def launch (h : Host) (config : Config) (processId : Nat) :
    Except SessionError Session × Host :=
  (Session.start { config, processId }, { h with items := h.items ++ [item] })

/-- The second half of an activation: register the workspace editor. If that is
refused, stop the session. -/
def equip (s : Session) (h : Host) : Activation × Host :=
  match ({} : Editor.Subscriptions).registerWorkspace h.registry with
  | .ok (subscriptions, registry) => (.active { session := s, subscriptions }, { h with registry })
  | .error cause => (.failed (.registration cause) s.stop, h)

/-- Activate: create the status item, start the session, and register the
workspace editor. -/
def activate (h : Host) (config : Config) (processId : Nat) : Activation × Host :=
  match launch h config processId with
  | (.error cause, h) => (.failed (.session cause) { config, processId }, h)
  | (.ok s, h) => equip s h

/-- Take a step of the session. -/
def step (x : Extension) (e : Session.Event) : Extension :=
  { x with session := x.session.step e }

/-- Begin to deactivate: stop the session. -/
def deactivate (x : Extension) : Extension := { x with session := x.session.stop }

/-- Finish deactivating: once the session has stopped, release what was
registered. -/
def finish (x : Extension) (h : Host) : Extension × Host :=
  if x.session.hasStopped then
    let (subscriptions, registry) := x.subscriptions.disposeAll h.registry
    ({ x with subscriptions }, { h with registry })
  else (x, h)

/-- The extension is dropped without being deactivated. -/
def drop (x : Extension) (h : Host) : Extension × Host :=
  let (subscriptions, registry) := x.subscriptions.disposeAll h.registry
  ({ session := x.session.drop, subscriptions }, { h with registry })

end Extension

end LanguageClient
