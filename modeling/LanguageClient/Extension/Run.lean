import LanguageClient.Extension

/-!
# `LanguageClient.Extension.Run`: an activation among others

An activation takes its time, and so does a deactivation. Meanwhile the server goes
on, and others use the registry of the same host.

- `Stage`: how far an activation is.
- `Use`: what others do with the registry.
- `Life`: a host, and an activation in it.
- `Life.step`, `Life.run`: what events make of them.
-/

set_option autoImplicit false

namespace LanguageClient.Extension

/-- How far an activation is. -/
inductive Stage where
  /-- The session has been started, and the editor is still to be registered. -/
  | starting (s : Session)
  | active (x : Extension)
  /-- The editor was refused. The activation fails once the session has stopped. -/
  | failing (cause : Failure) (s : Session)
  | failed (cause : Failure) (s : Session)
  /-- The deactivation waits for the session to stop. -/
  | ending (x : Extension)
  | ended (x : Extension)

namespace Stage

/-- The session of the activation. -/
def session : Stage → Session
  | .starting s | .failing _ s | .failed _ s => s
  | .active x | .ending x | .ended x => x.session

/-- What the activation keeps. -/
def kept : Stage → List Editor.Disposable
  | .starting _ | .failing _ _ | .failed _ _ => []
  | .active x | .ending x | .ended x => x.subscriptions.kept

/-- Let the session take a step. -/
def step (e : Session.Event) : Stage → Stage
  | .starting s => .starting (s.step e)
  | .active x => .active (x.step e)
  | .failing cause s => .failing cause (s.step e)
  | .failed cause s => .failed cause (s.step e)
  | .ending x => .ending (x.step e)
  | .ended x => .ended (x.step e)

/-- Whether the session can take a step. The activation starts and stops it by itself, and
documents are opened and closed while it is active. -/
def admits : Stage → Session.Event → Bool
  | _, .start | _, .stop => false
  | .active _, .openDocument _ | .active _, .closeDocument _ => true
  | _, e => !e.isRequest

end Stage

/-- What others can do with a registry. -/
inductive Use where
  | register (e : Editor.FileEditor)
  /-- They dispose of a handle, for the first time or again. -/
  | dispose (h : Editor.Handle)
  /-- The host drops its registry, and another one takes its place. -/
  | drop
  deriving DecidableEq, Repr

/-- What a use makes of a registry. A registration that is refused changes nothing. -/
def Use.on (r : Editor.Registry) : Use → Editor.Registry
  | .register e => (r.register e).toOption.elim r Prod.snd
  | .dispose h => r.dispose h
  | .drop => r.drop

/-- What can happen to an activation and its host. -/
inductive Event where
  | session (e : Session.Event)
  /-- The activation or the deactivation goes on. -/
  | proceed
  | deactivate
  | use (u : Use)

/-- A host, and an activation in it. -/
structure Life where
  host : Host
  stage : Stage

namespace Life

/-- How it stands once the second half of an activation has been tried. -/
def after : Activation × Host → Life
  | (.active x, host) => { host, stage := .active x }
  | (.failed cause s, host) => { host, stage := .failing cause s }

/-- Begin an activation. -/
def begin (host : Host) (config : Config) (processId : Nat) : Life :=
  match launch host config processId with
  | (.error cause, host) => { host, stage := .failed (.session cause) { config, processId } }
  | (.ok s, host) => { host, stage := .starting s }

/-- The activation or the deactivation goes on. -/
def proceed (l : Life) : Life :=
  match l.stage with
  | .starting s => after (equip s l.host)
  | .failing cause s => if s.hasStopped then { l with stage := .failed cause s } else l
  | .ending x =>
    if x.session.hasStopped then
      let (x, host) := x.finish l.host
      { host, stage := .ended x }
    else l
  | _ => l

/-- Begin to deactivate an extension that is active. -/
def deactivate (l : Life) : Life :=
  match l.stage with
  | .active x => { l with stage := .ending x.deactivate }
  | _ => l

/-- Whether somebody has what he wants to use: a handle that the activation keeps is in
nobody else's hands. -/
def offers (l : Life) : Use → Bool
  | .dispose h => .registration h ∉ l.stage.kept
  | _ => true

/-- What an event makes of an activation and its host. -/
def step (l : Life) : Event → Life
  | .session e => if l.stage.admits e then { l with stage := l.stage.step e } else l
  | .proceed => l.proceed
  | .deactivate => l.deactivate
  | .use u => if l.offers u then { l with host.registry := u.on l.host.registry } else l

/-- What events make of them, one after another. -/
def run (l : Life) (events : List Event) : Life := events.foldl step l

end Life

end LanguageClient.Extension
