import LanguageClient.Status.Item

/-!
# `LanguageClient.Proofs.Status.Disposal`: an item that has been given up

Whoever gives an item up may go on making calls on it, and they should do nothing. Five of the six
calls look whether the item is still there, or find nothing to do on one that is hidden. The sixth
one does not look: an item can be renamed after it has been disposed of. So a disposed item is
inert under exactly those calls that leave it the name that it has.

* `applyAll_of_gone`: calls on a disposed item change its name at most.
* `inert_iff`: they change nothing exactly if none of them gives it another name.
* `disposal`: both, for every item and whatever has been done to it before.
-/

set_option autoImplicit false

namespace LanguageClient.Status.LoggedItem

variable {i : LoggedItem} {later : List ItemCall}

/-- An item has been disposed of, and cannot be seen. -/
structure Gone (i : LoggedItem) : Prop where
  disposed : i.disposed = true
  hidden : i.visible = false

/-- The name of an item after calls that may give it another one. -/
def lastName (name : String) (calls : List ItemCall) : String :=
  calls.foldl
    (fun name c =>
      match c with
      | .name value => value
      | _ => name) name

/-- Calls on an item change none of its fields and render nothing, not even for a while. -/
def Inert (i : LoggedItem) (later : List ItemCall) : Prop :=
  ∀ part, part <+: later → i.applyAll part = i

/-- Disposing of an item hides it. -/
theorem gone_dispose (i : LoggedItem) : Gone (i.apply .dispose) := ⟨rfl, rfl⟩

/-- The last name is that of the last call if it gives one. -/
theorem lastName_concat (name : String) (calls : List ItemCall) (c : ItemCall) :
    lastName name (calls ++ [c]) = lastName (lastName name calls) [c] := by
  simp [lastName]

/-- A call on a disposed item changes its name at most. Three of the calls (text, tooltip, reveal)
ask whether the item is there, and two (hide, dispose) hide what is hidden already. The one that
sets the name asks for nothing. -/
theorem apply_of_gone (h : Gone i) (c : ItemCall) :
    i.apply c = { i with name := lastName i.name [c] } := by
  obtain ⟨id, name, text, tooltip, visible, disposed, rendered⟩ := i
  obtain rfl : disposed = true := h.disposed
  obtain rfl : visible = false := h.hidden
  cases c with
  | name value => rfl
  | text value => simp [apply, lastName]
  | tooltip value => simp [apply, lastName]
  | reveal => simp [apply, lastName]
  | hide => rfl
  | dispose => rfl

/-- Calls on a disposed item change its name at most, and the last of them that gives one decides.
By induction on the calls, since the item stays disposed. -/
theorem applyAll_of_gone (h : Gone i) (calls : List ItemCall) :
    i.applyAll calls = { i with name := lastName i.name calls } := by
  induction calls generalizing i with
  | nil => rfl
  | cons c calls ih =>
    -- The item is still disposed of after the first call, which has at most renamed it.
    have hgone : Gone { i with name := lastName i.name [c] } := ⟨h.disposed, h.hidden⟩
    rw [applyAll, List.foldl_cons, apply_of_gone h]
    exact ih hgone

/-- Giving an item the name that it has is no change, so such calls cannot be told from none. By
induction on the calls, since the name is the same after each of them. -/
theorem lastName_eq_self {name : String} {calls : List ItemCall}
    (h : ∀ value, .name value ∈ calls → value = name) : lastName name calls = name := by
  induction calls with
  | nil => rfl
  | cons c calls ih =>
    have hc : lastName name [c] = name := by
      cases c with
      | name value => exact h value List.mem_cons_self
      | _ => rfl
    have hcalls := ih fun value hmem => h value (List.mem_cons_of_mem c hmem)
    have hsplit : lastName name (c :: calls) = lastName (lastName name [c]) calls := by
      simp [lastName]
    rw [hsplit, hc, hcalls]

/-- A disposed item is inert exactly if no call gives it another name. It has to be so at every
moment in between, which is why a name that is set and set back counts. -/
theorem inert_iff (h : Gone i) :
    Inert i later ↔ ∀ value, .name value ∈ later → value = i.name := by
  constructor
  · -- Just after the call that gives the name, the item has it. So it is the one that the item had.
    intro hinert value hmem
    obtain ⟨before, after, rfl⟩ := List.append_of_mem hmem
    have hfront : before ++ [.name value] <+: before ++ .name value :: after :=
      ⟨after, by simp⟩
    have hname := congrArg LoggedItem.name (hinert _ hfront)
    rw [applyAll_of_gone h, lastName_concat] at hname
    exact hname
  · intro hnames part hfront
    have hpart : ∀ value, .name value ∈ part → value = i.name := by
      intro value hmem
      exact hnames value (hfront.subset hmem)
    rw [applyAll_of_gone h, lastName_eq_self hpart]

/-- Whatever has been done to an item before it was disposed of, later calls change its name at
most, and they change nothing and render nothing exactly if none of them gives it another name. -/
theorem disposal (id : String) (before later : List ItemCall) :
    let gone := (new id).applyAll (before ++ [.dispose])
    gone.applyAll later = { gone with name := lastName gone.name later } ∧
      (Inert gone later ↔ ∀ value, .name value ∈ later → value = gone.name) := by
  have hgone : Gone ((new id).applyAll (before ++ [.dispose])) := by
    rw [applyAll, List.foldl_append]
    exact gone_dispose _
  exact ⟨applyAll_of_gone hgone later, inert_iff hgone⟩

/-- A disposed item takes another name, which the call should not be able to give it. -/
theorem renamed_after_disposal :
    ¬Inert ((new "beef-lsp").apply .dispose) [.name "Beef Lsp Status"] ∧
      (((new "beef-lsp").apply .dispose).apply (.name "Beef Lsp Status")).name =
        "Beef Lsp Status" := by
  refine ⟨fun h => ?_, rfl⟩
  have hsame := congrArg LoggedItem.name (h _ (List.prefix_refl _))
  exact absurd hsame (by decide)

end LanguageClient.Status.LoggedItem
