import LanguageClient.Path
import LanguageClient.Text.Blank

/-!
# `LanguageClient.Editor.Registry`: editors for particular files

An editor claims files by name under a view type of its own. The registry gives
out a handle for each registration; disposing of the handle ends the
registration, and doing so again does nothing.

- `FileEditor`: a view type and the names it claims.
- `Registry.register`, `Registry.dispose`: registrations and their end.
- `Registry.resolve`: the editor that opens a file.
-/

set_option autoImplicit false

namespace LanguageClient.Editor

/-- An editor for files with certain names. -/
structure FileEditor where
  viewType : String
  /-- A file name, or a star and what the name ends in. -/
  pattern : String
  deriving DecidableEq, Repr

/-- Whether a name has the form of a pattern. -/
def matchesName (pattern name : List Char) : Bool :=
  match pattern with
  | '*' :: ending => ending.isSuffixOf name
  | pattern => name == pattern

/-- Whether the editor claims a path, by the name of its last segment. -/
def FileEditor.claims (e : FileEditor) (p : Path) : Bool :=
  match p.name?.bind Text.decode? with
  | some name => matchesName e.pattern.toList name
  | none => false

/-- The editor of workspace files. -/
def workspaceEditor : FileEditor := ⟨"beef.workspaceEditor", "BeefSpace.toml"⟩

/-- Why an editor is not registered. -/
inductive RegistrationError where
  | duplicateViewType (viewType : String)
  | invalidViewType (viewType : String)
  deriving DecidableEq, Repr

/-- The text of a failure. -/
def RegistrationError.message : RegistrationError → String
  | .duplicateViewType v => "Custom editor view type already registered: " ++ v
  | .invalidViewType v => "Invalid custom editor view type: '" ++ v ++ "'"

/-- What a handle stands for. -/
structure Registration where
  viewType : String
  disposed : Bool := false
  deriving DecidableEq, Repr

/-- The number of a handle, counted in the order in which they were given out. -/
abbrev Handle := Nat

/-- The registered editors, ordered by view type, and the handles given out. -/
structure Registry where
  editors : List FileEditor := []
  registrations : List Registration := []
  deriving DecidableEq, Repr

namespace Registry

/-- Whether a view type is registered. -/
def isRegistered (r : Registry) (viewType : String) : Bool :=
  r.editors.any fun e => e.viewType == viewType

/-- Put an editor in its place in the order of view types. -/
def insert (e : FileEditor) : List FileEditor → List FileEditor
  | [] => [e]
  | f :: rest => if e.viewType < f.viewType then e :: f :: rest else f :: insert e rest

/-- Whether a view type may not be used: it is empty or has blanks in it. -/
def isInvalid (viewType : String) : Bool :=
  viewType.isEmpty || viewType.toList.any Text.isBlank

/-- Register an editor. The handle ends the registration. -/
def register (r : Registry) (e : FileEditor) : Except RegistrationError (Handle × Registry) :=
  if isInvalid e.viewType then .error (.invalidViewType e.viewType)
  else if r.isRegistered e.viewType then .error (.duplicateViewType e.viewType)
  else
    .ok (r.registrations.length,
      { editors := insert e r.editors
        registrations := r.registrations ++ [⟨e.viewType, false⟩] })

/-- End the registration of a handle, unless that has been done. -/
def dispose (r : Registry) (h : Handle) : Registry :=
  match r.registrations[h]? with
  | some ⟨viewType, false⟩ =>
    { editors := r.editors.filter fun e => e.viewType != viewType
      registrations := r.registrations.set h ⟨viewType, true⟩ }
  | _ => r

/-- Drop all registrations. Handles outlive them, and disposing of them has
nothing left to end. -/
def drop (r : Registry) : Registry :=
  { editors := [], registrations := r.registrations.map fun g => { g with disposed := true } }

/-- The view type of the editor that opens a path: of those that claim it the
least one. -/
def resolve (r : Registry) (p : Path) : Option String :=
  (r.editors.find? fun e => e.claims p).map FileEditor.viewType

end Registry

end LanguageClient.Editor
