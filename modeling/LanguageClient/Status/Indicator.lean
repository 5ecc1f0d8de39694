import LanguageClient.Status.Item

/-!
# `LanguageClient.Status.Indicator`: how a session shows its state

An indicator owns an item. It shows that the session is starting, then that it
is running, each at most once and never back; a torn-down indicator has hidden
and disposed its item and says nothing more.

- `Descriptor`: what an indicator shows.
- `Indicator.showStarting`, `Indicator.showRunning`, `Indicator.tearDown`: the
  operations; `calls` keeps every call made on the item, in order.
-/

set_option autoImplicit false

namespace LanguageClient.Status

/-- A text and its tooltip. -/
structure Descriptor where
  text : String
  tooltip : String
  deriving DecidableEq, Repr

namespace Descriptor

/-- The session is starting. -/
def starting : Descriptor := ⟨"$(loading~spin) Beef Lsp", "Status: Starting"⟩

/-- The session is running. -/
def running : Descriptor := ⟨"$(check) Beef Lsp", "Status: Running"⟩

/-- The calls that show the descriptor. -/
def calls (d : Descriptor) : List ItemCall := [.text d.text, .tooltip d.tooltip]

end Descriptor

/-- The name of the item. -/
def itemName : String := "Beef Lsp Status"

/-- What is shown of a session. -/
structure Indicator where
  current : Option Descriptor := none
  disposed : Bool := false
  /-- The calls made on the item so far. -/
  calls : List ItemCall := []
  deriving DecidableEq, Repr

namespace Indicator

/-- Show a descriptor. -/
def display (i : Indicator) (d : Descriptor) : Indicator :=
  { i with current := some d, calls := i.calls ++ d.calls }

/-- Make a call on the item. -/
def call (i : Indicator) (c : ItemCall) : Indicator := { i with calls := i.calls ++ [c] }

/-- Name the item, show that the session is starting, and reveal it. -/
def showStarting (i : Indicator) : Indicator :=
  if i.disposed ∨ i.current.isSome then i
  else ((i.call (.name itemName)).display .starting).call .reveal

/-- Show that the session is running, and say whether that is news. -/
def showRunning (i : Indicator) : Bool × Indicator :=
  if i.disposed ∨ i.current = some .running then (false, i)
  else (true, i.display .running)

/-- Hide the item and dispose of it. -/
def tearDown (i : Indicator) : Indicator :=
  if i.disposed then i else { (i.call .hide).call .dispose with disposed := true }

end Indicator

end LanguageClient.Status
