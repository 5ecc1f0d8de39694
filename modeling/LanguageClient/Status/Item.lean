/-!
# `LanguageClient.Status.Item`: items of a status bar

An item has a name, a text and a tooltip, and is hidden until it is revealed. A
`LoggedItem` reports what can be seen of it: it renders itself when it is
revealed and when its text changes in sight. Its tooltip is reported with the
next rendering.

- `ItemCall`: what can be asked of an item.
- `LoggedItem.apply`: what a call does to a logged item.
-/

set_option autoImplicit false

namespace LanguageClient.Status

/-- What can be asked of an item. -/
inductive ItemCall where
  | name (value : String)
  | text (value : String)
  | tooltip (value : String)
  | reveal
  | hide
  | dispose
  deriving DecidableEq, Repr

/-- Whether an item can be seen after calls. -/
def isVisible (calls : List ItemCall) : Bool :=
  calls.foldl
    (fun visible c =>
      match c with
      | .reveal => true
      | .hide | .dispose => false
      | _ => visible) false

/-- What an item shows at a moment. -/
structure Rendering where
  name : String
  tooltip : String
  text : String
  deriving DecidableEq, Repr

/-- An item that reports what can be seen of it. -/
structure LoggedItem where
  id : String
  name : String
  text : String := ""
  tooltip : String := ""
  visible : Bool := false
  disposed : Bool := false
  /-- The renderings so far. -/
  rendered : List Rendering := []
  deriving DecidableEq, Repr

namespace LoggedItem

/-- A new item, named by its id. -/
def new (id : String) : LoggedItem := { id, name := id }

/-- Report what can be seen, if anything can. -/
def render (i : LoggedItem) : LoggedItem :=
  if i.visible ∧ ¬i.disposed then
    { i with rendered := i.rendered ++ [⟨i.name, i.tooltip, i.text⟩] }
  else i

/-- What a call does. A disposed item keeps its text and its tooltip. -/
def apply (i : LoggedItem) : ItemCall → LoggedItem
  | .name value => { i with name := value }
  | .text value => if i.disposed ∨ i.text = value then i else { i with text := value }.render
  | .tooltip value => if i.disposed then i else { i with tooltip := value }
  | .reveal => if i.disposed ∨ i.visible then i else { i with visible := true }.render
  | .hide => { i with visible := false }
  | .dispose => { i with visible := false, disposed := true }

/-- What calls do, one after another. -/
def applyAll (i : LoggedItem) (calls : List ItemCall) : LoggedItem := calls.foldl apply i

end LoggedItem

end LanguageClient.Status
