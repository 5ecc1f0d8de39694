import LanguageClient.Editor.Registry

/-!
# `LanguageClient.Editor.Subscriptions`: what is released at the end

An activation keeps what it has to release: registrations of editors, and other
things known by a label. All of them are released together, newest first.

- `Disposable`: what can be kept.
- `Subscriptions.push`, `Subscriptions.disposeAll`: keeping and releasing.
- `Subscriptions.registerWorkspace`: keep the registration of the workspace
  editor.
-/

set_option autoImplicit false

namespace LanguageClient.Editor

/-- Something that is released once. -/
inductive Disposable where
  | registration (handle : Handle)
  | labelled (label : String)
  deriving DecidableEq, Repr

/-- What is kept, newest first. -/
structure Subscriptions where
  kept : List Disposable := []
  /-- The labels released so far, in order. -/
  released : List String := []
  deriving DecidableEq, Repr

namespace Subscriptions

/-- How many things are kept. -/
def count (s : Subscriptions) : Nat := s.kept.length

/-- Keep one thing more. -/
def push (s : Subscriptions) (d : Disposable) : Subscriptions := { s with kept := d :: s.kept }

/-- Release one thing. -/
def release (state : Registry × List String) (d : Disposable) : Registry × List String :=
  match d with
  | .registration handle => (state.1.dispose handle, state.2)
  | .labelled label => (state.1, state.2 ++ [label])

/-- Release everything, newest first. -/
def disposeAll (s : Subscriptions) (r : Registry) : Subscriptions × Registry :=
  let (r, released) := s.kept.foldl release (r, s.released)
  ({ kept := [], released }, r)

/-- Register the workspace editor and keep its registration. -/
def registerWorkspace (s : Subscriptions) (r : Registry) :
    Except RegistrationError (Subscriptions × Registry) := do
  let (handle, r) ← r.register workspaceEditor
  return (s.push (.registration handle), r)

end Subscriptions

end LanguageClient.Editor
