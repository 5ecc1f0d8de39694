import LanguageClient.Editor.Subscriptions

/-!
# `LanguageClient.Editor.Run`: what becomes of registrations

A host has one registry at a time. Editors are registered with it, and their
handles are disposed of by those who hold them or by an activation that keeps
them. The activation and the registry end whenever their owners drop them, in
either order.

- `Event`: what can happen.
- `Desk`: a registry and an activation, and what has been done to them so far.
- `Desk.step`, `Desk.run`: what the events make of them.
-/

set_option autoImplicit false

namespace LanguageClient.Editor

/-- What can happen to a registry and to an activation beside it. -/
inductive Event where
  | register (e : FileEditor)
  /-- Somebody disposes of a handle, for the first time or again. -/
  | dispose (h : Handle)
  /-- The activation keeps something until it releases everything. -/
  | keep (x : Disposable)
  | disposeAll
  /-- The activation is dropped. -/
  | dropSubscriptions
  /-- The registry is dropped, and another one takes its place. -/
  | dropRegistry
  deriving DecidableEq, Repr

/-- A registry and an activation, and what has been done to them so far. -/
structure Desk where
  registry : Registry := {}
  subscriptions : Subscriptions := {}
  /-- The activation has been dropped. -/
  isOver : Bool := false
  /-- The editors whose registration succeeded. Their handles count them. -/
  granted : List FileEditor := []
  /-- The first handle of the present registry. -/
  first : Handle := 0
  /-- The handles that somebody has disposed of, in order. -/
  disposed : List Handle := []
  /-- What the activation has released, in order. -/
  released : List Disposable := []
  /-- What came to be kept between one release of everything and the next. -/
  batches : List (List Disposable) := []
  /-- What has come to be kept since the last of them. -/
  batch : List Disposable := []
  deriving DecidableEq, Repr

/-- Whether one can have something: nobody has a handle before it is given out. -/
def Disposable.isGiven (count : Nat) : Disposable → Bool
  | .registration handle => handle < count
  | .labelled _ => true

namespace Desk

/-- Dispose of a handle. -/
def dispose (d : Desk) (h : Handle) : Desk :=
  { d with registry := d.registry.dispose h, disposed := d.disposed ++ [h] }

/-- Keep one thing more. -/
def keep (d : Desk) (x : Disposable) : Desk :=
  { d with subscriptions := d.subscriptions.push x, batch := d.batch ++ [x] }

/-- Release one thing. -/
def release (d : Desk) (x : Disposable) : Desk :=
  let (registry, labels) := Subscriptions.release (d.registry, d.subscriptions.released) x
  { d with
    registry
    subscriptions := { d.subscriptions with released := labels }
    released := d.released ++ [x] }

/-- Release everything that is kept, newest first. -/
def disposeAll (d : Desk) : Desk :=
  let d := d.subscriptions.kept.foldl release d
  { d with
    subscriptions := { d.subscriptions with kept := [] }
    batches := d.batches ++ [d.batch]
    batch := [] }

/-- What an event makes of a registry and an activation. A dropped activation
can be asked for nothing more. -/
def step (d : Desk) : Event → Desk
  | .register e =>
    match d.registry.register e with
    | .ok (_, registry) => { d with registry, granted := d.granted ++ [e] }
    | .error _ => d
  | .dispose h => if h < d.granted.length then d.dispose h else d
  | .keep x => if !d.isOver && x.isGiven d.granted.length then d.keep x else d
  | .disposeAll => if d.isOver then d else d.disposeAll
  | .dropSubscriptions => if d.isOver then d else { d.disposeAll with isOver := true }
  | .dropRegistry => { d with registry := d.registry.drop, first := d.granted.length }

/-- What events make of them, one after another. -/
def run (d : Desk) (events : List Event) : Desk := events.foldl step d

end Desk

end LanguageClient.Editor
