import LanguageClient.Proofs.Editor.Lifetime
import LanguageClient.Proofs.Extension.Leaving
import Mathlib.Data.List.Sort

/-!
# `LanguageClient.Proofs.Extension.Activation`: activation and its undoing

Activation is atomic: either it adds the registration of the workspace editor to the
registry of its host, or it fails and leaves nothing behind. Deactivation undoes it. Others
use the same registry all the time. What they change is noted (`Change`), and the
registrations of others that last follow from these notes alone (`lasting`).

`Holding` is the invariant: besides the registrations of others there is at most one more,
whose handle the activation keeps; nobody else has that handle.

* `Holding.use`, `Held.proceed`: what others do, and what the activation does.
* `atomic_run`: what holds at every moment, whatever the server and the others do.
-/

set_option autoImplicit false

namespace LanguageClient.Extension

open Editor (Desk Disposable FileEditor Handle Registry Tracks workspaceEditor)
open Session (Clean ran)

/-! ### What others do -/

/-- How others change which registrations last. -/
inductive Change where
  | granted (h : Handle) (e : FileEditor)
  | disposed (h : Handle)
  | dropped
  deriving DecidableEq, Repr

/-- The registrations that last after a change. -/
def Change.on (live : Handle → FileEditor → Prop) : Change → Handle → FileEditor → Prop
  | .granted h e => fun h' f => live h' f ∨ h' = h ∧ f = e
  | .disposed h => fun h' f => h' ≠ h ∧ live h' f
  | .dropped => fun _ _ => False

/-- The registrations that last after some changes, if these lasted before. -/
def lasting (live : Handle → FileEditor → Prop) (changes : List Change) :
    Handle → FileEditor → Prop :=
  changes.foldl Change.on live

/-- What a use of a registry changes. A registration that is refused changes nothing. -/
def Use.change? (r : Registry) : Use → Option Change
  | .register e => (r.register e).toOption.map fun granted => .granted granted.1 e
  | .dispose h => some (.disposed h)
  | .drop => some .dropped

/-- What others do in a step. -/
def Event.use? : Event → Option Use
  | .use u => some u
  | .session _ | .proceed | .deactivate => none

/-- Whether an activation has got as far as to register its editor. -/
def Stage.isEquipped : Stage → Bool
  | .active _ | .ending _ | .ended _ => true
  | .starting _ | .failing _ _ | .failed _ _ => false

namespace Life

/-- What others change in a step. -/
def change? (l : Life) (e : Event) : Option Change :=
  e.use?.bind fun u => if l.offers u then u.change? l.host.registry else none

/-- What others change in a run, in order. -/
def changes (l : Life) : List Event → List Change
  | [] => []
  | e :: events => (l.change? e).toList ++ (l.step e).changes events

end Life

variable {config : Config} {processId : Nat} {live : Handle → FileEditor → Prop}
  {r : Registry} {kept : List Disposable} {dropped : Prop} {l : Life}

/-! ### The registry -/

/-- What a registry is, if these registrations of others last and an activation keeps that. -/
inductive Holding (live : Handle → FileEditor → Prop) (dropped : Prop) (r : Registry) :
    List Disposable → Prop where
  | nothing (tracks : Tracks r live) : Holding live dropped r []
  | own {h : Handle} (given : h < r.registrations.length) (foreign : ∀ e, ¬ live h e)
      (tracks : Tracks r fun h' e => live h' e ∨ h' = h ∧ e = workspaceEditor) :
      Holding live dropped r [.registration h]
  /-- The registry was dropped, and the registration of the activation went with it. -/
  | gone {h : Handle} (given : h < r.registrations.length) (foreign : ∀ e, ¬ live h e)
      (isDropped : dropped) (tracks : Tracks r live) : Holding live dropped r [.registration h]

/-- What is known of the registry stays known if more counts as dropping it. -/
theorem Holding.mono {dropped' : Prop} (h : Holding live dropped r kept)
    (himp : dropped → dropped') : Holding live dropped' r kept := by
  cases h with
  | nothing tracks => exact .nothing tracks
  | own given foreign tracks => exact .own given foreign tracks
  | gone given foreign isDropped tracks => exact .gone given foreign (himp isDropped) tracks

/-- Somebody registers an editor. It gets a handle of its own, so the registration of the activation
stays where it is. -/
theorem Holding.register (h : Holding live dropped r kept) {handle : Handle} {e : FileEditor}
    {after : Registry} (hok : r.register e = .ok (handle, after)) :
    Holding (Change.on live (.granted handle e)) dropped after kept := by
  cases h with
  | nothing tracks => exact .nothing (tracks.register hok).2.2
  | @own h given foreign tracks =>
    -- The new handle is behind those given out, so it is not the one of the activation.
    obtain ⟨rfl, hcount, htracks⟩ := tracks.register hok
    refine .own ?_ ?_ (htracks.congr fun h' f => or_right_comm)
    · rw [hcount]
      exact Nat.lt_succ_of_lt given
    · rintro f (hlive | ⟨hsame, -⟩)
      · exact foreign f hlive
      · exact given.ne hsame
  | @gone h given foreign isDropped tracks =>
    -- The registration of the activation went with the registry before. Handles are not used again,
    -- so the new one is not its.
    obtain ⟨rfl, hcount, htracks⟩ := tracks.register hok
    refine .gone ?_ ?_ isDropped htracks
    · rw [hcount]
      exact Nat.lt_succ_of_lt given
    · rintro f (hlive | ⟨hsame, -⟩)
      · exact foreign f hlive
      · exact given.ne hsame

/-- Somebody else disposes of a handle. It is not the one that the activation keeps (`hother`),
which therefore stays registered. -/
theorem Holding.dispose (h : Holding live dropped r kept) {handle : Handle}
    (hother : .registration handle ∉ kept) :
    Holding (Change.on live (.disposed handle)) dropped (r.dispose handle) kept := by
  cases h with
  | nothing tracks => exact .nothing (tracks.dispose handle).2
  | @own h given foreign tracks =>
    -- The handle that is kept is not the one that is disposed of, so its registration lasts.
    have hne : h ≠ handle := by
      rintro rfl
      exact hother List.mem_cons_self
    obtain ⟨hcount, htracks⟩ := tracks.dispose handle
    refine .own (given.trans_eq hcount.symm) (fun e hlive => foreign e hlive.2)
      (htracks.congr fun h' e => ?_)
    rw [and_or_left]
    refine or_congr_right (and_iff_right_of_imp ?_)
    rintro ⟨rfl, -⟩
    exact hne
  | @gone h given foreign isDropped tracks =>
    obtain ⟨hcount, htracks⟩ := tracks.dispose handle
    exact .gone (given.trans_eq hcount.symm) (fun e hlive => foreign e hlive.2) isDropped htracks

/-- The registry is dropped, and with it whatever was registered. The activation keeps its handle,
which means nothing any more. -/
theorem Holding.drop (h : Holding live dropped r kept) (hdropped : dropped) :
    Holding (Change.on live .dropped) dropped r.drop kept := by
  obtain ⟨hcount, htracks⟩ := Tracks.drop r
  cases h with
  | nothing => exact .nothing htracks
  | own given => exact .gone (given.trans_eq hcount.symm) (fun _ => id) hdropped htracks
  | gone given => exact .gone (given.trans_eq hcount.symm) (fun _ => id) hdropped htracks

/-- What others do leaves the registration of an activation alone, unless they drop the registry.
One case for each way to use it; a registration that is refused changes nothing. -/
theorem Holding.use (h : Holding live dropped r kept) {u : Use}
    (hother : ∀ handle, u = .dispose handle → .registration handle ∉ kept) :
    Holding ((u.change? r).elim live (Change.on live)) (dropped ∨ u.change? r = some .dropped)
      (u.on r) kept := by
  -- Whether the registry has been dropped can only become true by this use.
  have hmono : Holding live (dropped ∨ u.change? r = some .dropped) r kept := h.mono .inl
  cases u with
  | register e =>
    cases hok : r.register e with
    | error cause =>
      -- A refusal is no change of the registry, so what was known of it is still known.
      have hnone : (Use.register e).change? r = none := by
        rw [Use.change?, hok]
        rfl
      have hsame : (Use.register e).on r = r := by
        rw [Use.on, hok]
        rfl
      rw [hnone] at hmono ⊢
      rw [hsame]
      exact hmono
    | ok granted =>
      -- One more editor is registered, for somebody else.
      obtain ⟨handle, after⟩ := granted
      have hsome : (Use.register e).change? r = some (.granted handle e) := by
        rw [Use.change?, hok]
        rfl
      have hafter : (Use.register e).on r = after := by
        rw [Use.on, hok]
        rfl
      rw [hsome] at hmono ⊢
      rw [hafter]
      exact hmono.register hok
  | dispose handle => exact hmono.dispose (hother handle rfl)
  | drop => exact hmono.drop (.inr rfl)

/-- The activation registers its editor: its registration is added to those of others, and its
handle is kept. -/
theorem Holding.equip (h : Holding live dropped r []) {after : Registry}
    (hok : r.register workspaceEditor = .ok (r.registrations.length, after)) :
    Holding live dropped after [.registration r.registrations.length] := by
  cases h with
  | nothing tracks =>
    obtain ⟨-, hcount, htracks⟩ := tracks.register hok
    refine .own ?_ (fun e hlive => ?_) htracks
    · rw [hcount]
      exact Nat.lt_succ_self _
    · exact absurd (tracks.lt_length hlive) (lt_irrefl _)

/-- The activation releases what it keeps, and the registrations of others remain. This is what
makes an activation leave nothing behind. -/
theorem Holding.disposeAll {subscriptions : Editor.Subscriptions}
    (h : Holding live dropped r subscriptions.kept) :
    (subscriptions.disposeAll r).1.kept = [] ∧ Tracks (subscriptions.disposeAll r).2 live := by
  refine ⟨rfl, ?_⟩
  obtain ⟨kept, released⟩ := subscriptions
  cases h with
  | nothing tracks => exact tracks
  | @own h given foreign tracks =>
    -- Without the own handle, what is left are the registrations of others: none has it.
    refine (tracks.dispose h).2.congr fun h' e => ?_
    rw [and_or_left]
    constructor
    · rintro (⟨-, hlive⟩ | ⟨hne, rfl, -⟩)
      · exact hlive
      · exact absurd rfl hne
    · intro hlive
      refine .inl ⟨?_, hlive⟩
      rintro rfl
      exact foreign e hlive
  | @gone h given foreign isDropped tracks =>
    -- The handle has outlived its registry, and disposing of it does nothing.
    refine (tracks.dispose h).2.congr fun h' e => and_iff_right_of_imp ?_
    rintro hlive rfl
    exact foreign e hlive

/-! ### Steps -/

/-- What an activation keeps, by how far it is. -/
structure Held (live : Handle → FileEditor → Prop) (dropped : Prop) (l : Life) : Prop where
  holding : Holding live dropped l.host.registry l.stage.kept
  /-- It keeps something while it is active and while it waits to release that. -/
  kept : l.stage.kept ≠ [] ↔ l.stage.isEquipped = true ∧ l.stage.isOver = false

/-- Going on registers the editor, or releases what is kept once the session has stopped. Otherwise
nothing happens to the registry. -/
theorem Held.proceed (h : Held live dropped l) : Held live dropped l.proceed := by
  obtain ⟨host, stage⟩ := l
  cases stage with
  | starting s =>
    rw [proceed_starting]
    cases htaken : host.registry.isRegistered workspaceEditor.viewType with
    | true =>
      -- The editor is refused. Nothing was kept before and nothing is kept now.
      rw [equip_of_registered htaken]
      exact ⟨h.holding, fun hkept => absurd rfl hkept, nofun⟩
    | false =>
      obtain ⟨registry, hok, hequip⟩ := equip_of_free htaken s
      rw [hequip]
      exact ⟨h.holding.equip hok, fun _ => ⟨rfl, rfl⟩, fun _ => List.cons_ne_nil _ _⟩
  | failing cause s =>
    -- An activation that fails has kept nothing that it could release.
    rw [proceed_failing]
    split
    · exact ⟨h.holding, fun hkept => absurd rfl hkept, nofun⟩
    · exact h
  | ending x =>
    -- It releases what it keeps only when its session has stopped.
    rw [proceed_ending]
    split
    · exact ⟨.nothing h.holding.disposeAll.2, fun hkept => absurd rfl hkept, nofun⟩
    · exact h
  | active x => exact h
  | failed cause s => exact h
  | ended x => exact h

/-- Deactivating stops the session first, and releases nothing yet. -/
theorem Held.deactivate (h : Held live dropped l) : Held live dropped l.deactivate := by
  obtain ⟨host, stage⟩ := l
  cases stage with
  | active x => exact ⟨h.holding, h.kept⟩
  | starting s => exact h
  | failing cause s => exact h
  | failed cause s => exact h
  | ending x => exact h
  | ended x => exact h

/-- What the session does by itself registers nothing. -/
@[simp] theorem Stage.isEquipped_step (stage : Stage) (e : Session.Event) :
    (stage.step e).isEquipped = stage.isEquipped := by cases stage <;> rfl

/-- Somebody who wants to dispose of a handle has it only if it is not the activation's. So
`Holding.use` applies to all that others can do. -/
theorem Life.not_mem_of_offers {u : Use} (h : l.offers u = true) :
    ∀ handle, u = .dispose handle → .registration handle ∉ l.stage.kept := by
  rintro handle rfl
  exact of_decide_eq_true h

/-- Every event keeps what is known of the registry, with the registrations of others as the event
leaves them. What others do is noted by `change?`, and what the activation does is not: it does not
count for what lasts. -/
theorem Held.step (h : Held live dropped l) (e : Event) :
    Held ((l.change? e).elim live (Change.on live)) (dropped ∨ l.change? e = some .dropped)
      (l.step e) := by
  have hmono : Held live (dropped ∨ l.change? e = some .dropped) l := ⟨h.holding.mono .inl, h.kept⟩
  cases e with
  | session e =>
    show Held live _ (l.step (.session e))
    unfold Life.step
    dsimp only
    split
    · -- A step of the session leaves the registry and what is kept alone.
      refine ⟨?_, ?_⟩
      · show Holding live _ l.host.registry (l.stage.step e).kept
        rw [Stage.kept_step]
        exact hmono.holding
      · show (l.stage.step e).kept ≠ [] ↔ _
        rw [Stage.kept_step, Stage.isEquipped_step, Stage.isOver_step]
        exact hmono.kept
    · exact hmono
  | proceed => exact hmono.proceed
  | deactivate => exact hmono.deactivate
  | use u =>
    -- What others do changes the registry, and nothing of the activation.
    by_cases hoffers : l.offers u = true
    · have hchange : l.change? (.use u) = u.change? l.host.registry := if_pos hoffers
      have hstep : l.step (.use u) = { l with host.registry := u.on l.host.registry } :=
        if_pos hoffers
      rw [hchange, hstep]
      exact ⟨h.holding.use (Life.not_mem_of_offers hoffers), h.kept⟩
    · have hchange : l.change? (.use u) = none := if_neg hoffers
      have hstep : l.step (.use u) = l := if_neg hoffers
      rw [hchange] at hmono ⊢
      rw [hstep]
      exact hmono

/-! ### Before the editor is registered -/

/-- An activation without a registration has no handle that others would have to leave alone. -/
theorem Life.offers_of_not_isEquipped (h : l.stage.isEquipped = false) (u : Use) :
    l.offers u = true := by
  obtain ⟨host, stage⟩ := l
  cases stage with
  | starting | failing | failed => cases u <;> rfl
  | active | ending | ended => cases h

/-- The activation touches the registry only to register its editor. Until then, and if it is
refused, a step is for the registry what others do in it. -/
theorem Life.registry_step {e : Event} (hout : (l.step e).stage.isEquipped = false) :
    l.stage.isEquipped = false ∧
      (l.step e).host.registry = e.use?.elim l.host.registry (Use.on l.host.registry) := by
  cases e with
  | session e =>
    -- The session has no part in the registry.
    unfold step at hout ⊢
    dsimp only at hout ⊢
    split at hout
    · rw [if_pos ‹_›]
      rw [Stage.isEquipped_step] at hout
      exact ⟨hout, rfl⟩
    · rw [if_neg ‹_›]
      exact ⟨hout, rfl⟩
  | proceed =>
    change l.proceed.stage.isEquipped = false at hout
    show _ ∧ l.proceed.host.registry = l.host.registry
    obtain ⟨host, stage⟩ := l
    cases stage with
    | starting s =>
      rw [proceed_starting] at hout ⊢
      cases htaken : host.registry.isRegistered workspaceEditor.viewType with
      | true =>
        rw [equip_of_registered htaken]
        exact ⟨rfl, rfl⟩
      | false =>
        -- Registering the editor is what makes the activation active.
        obtain ⟨registry, -, hequip⟩ := equip_of_free htaken s
        rw [hequip] at hout
        exact nomatch hout
    | failing cause s =>
      rw [proceed_failing]
      split <;> exact ⟨rfl, rfl⟩
    | failed => exact ⟨rfl, rfl⟩
    | ending x =>
      rw [proceed_ending] at hout
      split at hout <;> exact nomatch hout
    -- These two stages are equipped already, and stay so.
    | active | ended => exact nomatch hout
  | deactivate =>
    obtain ⟨host, stage⟩ := l
    cases stage with
    | starting | failing | failed => exact ⟨rfl, rfl⟩
    | active | ending | ended => exact nomatch hout
  | use u =>
    -- No registration is its own yet, so all that others ask for is offered to them.
    rw [stage_use] at hout
    refine ⟨hout, ?_⟩
    rw [step, if_pos (offers_of_not_isEquipped hout u)]
    rfl

/-- Until the editor is registered, and if it is refused, the registry is what the others make of
it. Since the stage does not go back, it had not been registered before either. -/
theorem Life.registry_run {events : List Event} (hout : (l.run events).stage.isEquipped = false) :
    l.stage.isEquipped = false ∧
      (l.run events).host.registry = (events.filterMap Event.use?).foldl Use.on l.host.registry := by
  induction events generalizing l with
  | nil => exact ⟨hout, rfl⟩
  | cons e events ih =>
    -- From the end backwards: it is not registered after the first event, so it was not before.
    obtain ⟨hnext, hrest⟩ := ih (l := l.step e) hout
    obtain ⟨hfirst, hregistry⟩ := registry_step hnext
    refine ⟨hfirst, hrest.trans ?_⟩
    rw [hregistry]
    cases e with
    | use u => rfl
    | session | proceed | deactivate => rfl

/-! ### Runs -/

/-- One change more, and the registrations that last after it. -/
theorem lasting_toList_append (live : Handle → FileEditor → Prop) (change : Option Change)
    (changes : List Change) :
    lasting live (change.toList ++ changes) =
      lasting (change.elim live (Change.on live)) changes := by
  cases change <;> rfl

/-- What is known of the registry after a run, with the registrations of others that last by then.
By induction on the events: each adds its change to the notes. -/
theorem Held.run (h : Held live dropped l) (events : List Event) :
    Held (lasting live (l.changes events)) (dropped ∨ .dropped ∈ l.changes events)
      (l.run events) := by
  induction events generalizing l live dropped with
  | nil => exact ⟨h.holding.mono .inl, h.kept⟩
  | cons e events ih =>
    have hrun := ih (h.step e)
    rw [Life.changes, lasting_toList_append, List.mem_append, Option.mem_toList]
    refine ⟨hrun.holding.mono ?_, hrun.kept⟩
    rintro ((hdropped | hnow) | hlater)
    · exact .inl hdropped
    · exact .inr (.inl hnow)
    · exact .inr (.inr hlater)

/-- The status item of an activation is created once: at the beginning, and by no event. The other
parts of the host change in many ways; this one is only read. -/
theorem Life.items_step (l : Life) (e : Event) : (l.step e).host.items = l.host.items := by
  cases e with
  | session e =>
    unfold step
    dsimp only
    split <;> rfl
  | proceed =>
    show l.proceed.host.items = l.host.items
    obtain ⟨host, stage⟩ := l
    cases stage with
    | starting s =>
      -- Going on registers the editor. The item was made before, and is not touched by it.
      rw [proceed_starting]
      unfold LanguageClient.Extension.equip
      split <;> rfl
    | failing cause s =>
      rw [proceed_failing]
      split <;> rfl
    | ending x =>
      rw [proceed_ending]
      split <;> rfl
    | active | failed | ended => rfl
  | deactivate =>
    obtain ⟨host, stage⟩ := l
    cases stage <;> rfl
  | use u =>
    unfold step
    dsimp only
    split <;> rfl

/-- The status item of an activation is the one that it had at the beginning, in every run. -/
theorem Life.items_run (l : Life) (events : List Event) :
    (l.run events).host.items = l.host.items := by
  unfold run
  exact List.foldlRecOn (motive := fun l' => l'.host.items = l.host.items) events Life.step rfl
    fun l' h e _ => (l'.items_step e).trans h

/-! ### From its beginning to its end -/

/-- The handle that an activation keeps, and what that means for the registry: its registration
lasts, unless somebody has dropped the registry. -/
theorem Held.exists_own (h : Held live dropped l) (hequipped : l.stage.isEquipped = true)
    (hgoes : l.stage.isOver = false) :
    ∃ own, l.stage.kept = [.registration own] ∧
      (Tracks l.host.registry (fun h e => live h e ∨ h = own ∧ e = workspaceEditor) ∨
        dropped ∧ Tracks l.host.registry live) := by
  have hkept := h.kept.mpr ⟨hequipped, hgoes⟩
  have hholding := h.holding
  generalize l.stage.kept = kept at hkept hholding ⊢
  cases hholding with
  | nothing => exact absurd rfl hkept
  | own given foreign tracks => exact ⟨_, rfl, .inl tracks⟩
  | gone given foreign isDropped tracks => exact ⟨_, rfl, .inr ⟨isDropped, tracks⟩⟩

/-- An activation that keeps nothing adds nothing to what others have registered: it has not got so
far, or it has released everything. -/
theorem Held.tracks (h : Held live dropped l)
    (hnone : l.stage.isEquipped = false ∨ l.stage.isOver = true) :
    l.stage.kept = [] ∧ Tracks l.host.registry live := by
  have hkept : l.stage.kept = [] := by
    by_contra hkept
    obtain ⟨hequipped, hgoes⟩ := h.kept.mp hkept
    rcases hnone with hnot | hover
    · exact nomatch hnot.symm.trans hequipped
    · exact nomatch hover.symm.trans hgoes
  have hholding := h.holding
  rw [hkept] at hholding
  cases hholding with
  | nothing tracks => exact ⟨hkept, tracks⟩

/-- If nobody has its view type, the editor is registered, and nothing else changes. Others stay
registered as they were. -/
theorem Held.success (h : Held live dropped l) {s : Session} (hstage : l.stage = .starting s)
    (hfree : l.host.registry.isRegistered workspaceEditor.viewType = false) :
    ∃ own registry,
      l.proceed = ⟨{ l.host with registry }, .active ⟨s, { kept := [.registration own] }⟩⟩ ∧
      (∀ e, e ∈ registry.editors ↔ e ∈ l.host.registry.editors ∨ e = workspaceEditor) ∧
      Tracks registry fun h e => live h e ∨ h = own ∧ e = workspaceEditor := by
  obtain ⟨-, hothers⟩ := h.tracks (.inl (by rw [hstage]; rfl))
  obtain ⟨after, hok, hequip⟩ := equip_of_free hfree s
  obtain ⟨-, -, hboth⟩ := hothers.register hok
  refine ⟨_, after, ?_, fun e => ?_, hboth⟩
  · rw [Life.proceed, hstage]
    exact congrArg Life.after hequip
  · rw [hboth.mem, hothers.mem, exists_or]
    simp only [exists_eq_left]

/-- Registries that track the same registrations have the same editors in the same order, since a
registry keeps its editors sorted. -/
theorem editors_eq {r' : Registry} (h : Tracks r live) (h' : Tracks r' live) :
    r.editors = r'.editors := by
  have : Std.Irrefl fun e f : FileEditor => e.viewType < f.viewType := ⟨fun _ => lt_irrefl _⟩
  have : Std.Antisymm fun e f : FileEditor => e.viewType < f.viewType :=
    ⟨fun _ _ hless hmore => absurd hmore hless.not_gt⟩
  exact List.Pairwise.eq_of_mem_iff h.ordered h'.ordered fun e => by rw [h.mem, h'.mem]

/-- What one can rely on at every moment of an activation. When it began, these registrations
lasted in the registry of its host; since then, others have used the registry so, and have made
these changes. -/
structure Atomic (host : Host) (live : Handle → FileEditor → Prop) (config : Config)
    (processId : Nat) (uses : List Use) (changes : List Change) (l : Life) : Prop where
  /-- To activate at once is to begin and to go on. -/
  activate : (Life.begin host config processId).proceed = .after (activate host config processId)
  item : l.host.items = host.items ++ [item]
  session : ∃ steps, l.stage.session = ran config processId (.start :: steps)
  /-- If the view type is free when the editor is to be registered, the activation succeeds. It
  adds this one registration, and keeps its handle. -/
  success : ∀ s, l.stage = .starting s →
    l.host.registry.isRegistered "beef.workspaceEditor" = false →
    ∃ own registry,
      l.proceed = ⟨{ l.host with registry }, .active ⟨s, { kept := [.registration own] }⟩⟩ ∧
      (∀ e, e ∈ registry.editors ↔ e ∈ l.host.registry.editors ∨ e = workspaceEditor) ∧
      Tracks registry fun h e => lasting live changes h e ∨ h = own ∧ e = workspaceEditor
  /-- If it is taken, the session is stopped, and the activation fails. -/
  failure : ∀ s, l.stage = .starting s →
    l.host.registry.isRegistered "beef.workspaceEditor" = true →
    l.proceed =
      ⟨l.host, .failing (.registration (.duplicateViewType "beef.workspaceEditor")) s.stop⟩
  /-- It never fails for another reason. -/
  cause : ∀ cause, l.stage.cause? = some cause →
    cause = .registration (.duplicateViewType "beef.workspaceEditor")
  /-- Unless the editor has been registered, only others have changed the registry. -/
  untouched : l.stage.isEquipped = false → l.host.registry = uses.foldl Use.on host.registry
  /-- While it is active, the session has not been stopped, and it can be deactivated. -/
  active : ∀ x, l.stage = .active x →
    x.session.phase ≠ .stopped ∧ l.deactivate = ⟨l.host, .ending x.deactivate⟩
  /-- Its registration lasts until it is released, unless the registry is dropped. -/
  kept : ∀ x, l.stage = .active x ∨ l.stage = .ending x →
    ∃ own, x.subscriptions.kept = [.registration own] ∧
      (Tracks l.host.registry
          (fun h e => lasting live changes h e ∨ h = own ∧ e = workspaceEditor) ∨
        .dropped ∈ changes ∧ Tracks l.host.registry (lasting live changes))
  /-- It is not released before the session has stopped. -/
  order : ∀ x, l.stage = .ending x → x.session.hasStopped = false → l.proceed = l
  /-- Once it fails or is deactivated, its item has been put away. -/
  stopped : l.stage.isGoing = false → l.stage.session.phase = .stopped ∧
    ∃ shown, l.stage.session.indicator.calls = shown ++ [.hide, .dispose] ∧
      .hide ∉ shown ∧ .dispose ∉ shown
  /-- From then on there is something that it waits for. -/
  waits : ∀ s, l.stage.leaving? = some s → ∃ e, l.awaits e = true
  /-- It is over at the latest when it has waited six times. -/
  returns : ∀ s more, l.stage.leaving? = some s → 6 ≤ l.granted more →
    (l.run more).stage.isOver = true ∧ (l.run more).stage.cause? = l.stage.cause?
  /-- Then no connection is left, and no server that was spawned. -/
  finished : l.stage.isOver = true → l.stage.session.hasStopped = true ∧ Clean l.stage.session
  /-- After a deactivation there are just the registrations of others that last. -/
  undone : ∀ x, l.stage = .ended x →
    x.subscriptions.kept = [] ∧ Tracks l.host.registry (lasting live changes)
  /-- So if others have changed nothing, everything is as it was. -/
  restored : ∀ x, l.stage = .ended x → changes = [] →
    l.host.registry.editors = host.registry.editors

/-- A host in which all this has been done with the registry before. -/
def hostAfter (past : List Editor.Event) (items : List ItemRequest) : Host where
  registry := (Desk.run {} past).registry
  items := items

/-- Activation is atomic and deactivation undoes it: in a host with whatever past, whatever the
server does, and whatever others do meanwhile. What is said of the registry comes from `Held.run`,
and what is said of the session from `attended_run`; neither knows of the other. -/
theorem atomic_run (past : List Editor.Event) (items : List ItemRequest) (config : Config)
    (processId : Nat) (events : List Event) :
    Atomic (hostAfter past items) (Desk.run {} past).Lives config processId
      (events.filterMap Event.use?)
      ((Life.begin (hostAfter past items) config processId).changes events)
      ((Life.begin (hostAfter past items) config processId).run events) := by
  have htracks : Tracks (hostAfter past items).registry (Desk.run {} past).Lives :=
    (Desk.sound_run past).tracks
  -- Of the past only this counts: which registrations last.
  generalize hostAfter past items = host at htracks ⊢
  generalize (Desk.run {} past).Lives = live at htracks ⊢
  have hattended := attended_run host config processId events
  have hbegin : Held live False (Life.begin host config processId) :=
    ⟨.nothing htracks, fun hkept => absurd rfl hkept, nofun⟩
  have hrun := hbegin.run events
  rw [false_or] at hrun
  have hitems := (Life.begin host config processId).items_run events
  have hregistry : ((Life.begin host config processId).run events).stage.isEquipped = false → _ :=
    Life.registry_run
  -- And of the events, only what others have used and changed.
  generalize (Life.begin host config processId).changes events = changes at hrun ⊢
  generalize (Life.begin host config processId).run events = l at *
  constructor
  case activate => rfl
  case item => exact hitems
  case session =>
    obtain ⟨steps, hran, -⟩ := hattended.traced
    exact ⟨steps, hran⟩
  -- From here the registry decides: whether the view type is free is all that the activation asks.
  case success => exact fun s hstage hfree => hrun.success hstage hfree
  case failure =>
    intro s hstage htaken
    rw [Life.proceed, hstage]
    exact congrArg Life.after (equip_of_registered htaken s)
  case cause => exact hattended.cause
  case untouched => exact fun hout => (hregistry hout).2
  case active =>
    intro x hstage
    have hphase := hattended.phase (by rw [hstage]; rfl)
    rw [hstage] at hphase
    exact ⟨hphase, by rw [Life.deactivate, hstage]⟩
  -- Between activation and the end of deactivation exactly one registration is kept.
  case kept =>
    intro x hstage
    have hkeeps : l.stage.kept = x.subscriptions.kept ∧ l.stage.isEquipped = true ∧
        l.stage.isOver = false := by
      rcases hstage with hstage | hstage
      · rw [hstage]
        exact ⟨rfl, rfl, rfl⟩
      · rw [hstage]
        exact ⟨rfl, rfl, rfl⟩
    exact hkeeps.1 ▸ hrun.exists_own hkeeps.2.1 hkeeps.2.2
  case order =>
    intro x hstage hgoes
    exact Life.proceed_of_not_hasStopped (by rw [hstage]; rfl) hgoes
  case stopped =>
    intro hgoing
    exact ⟨(hattended.stopping hgoing).phase, hattended.item hgoing⟩
  case waits => exact fun s hleaving => Life.exists_awaits hattended hleaving
  -- The session may have to be waited for five times, and then the activation goes on itself.
  case returns =>
    intro s more hleaving hgranted
    obtain ⟨rfl, hgoing⟩ := Stage.session_of_leaving hleaving
    exact Life.Waits.isOver_run ⟨_, hleaving, hattended.stopping hgoing⟩ hgranted
  case finished => exact fun hover => ⟨hattended.hasStopped hover, hattended.clean hover⟩
  -- What is released is gone from the registry. The rest of it is what others have made of it.
  case undone =>
    intro x hstage
    have hnone := hrun.tracks (.inr (by rw [hstage]; rfl))
    rw [hstage] at hnone
    exact hnone
  case restored =>
    intro x hstage hsame
    have hnone := hrun.tracks (.inr (by rw [hstage]; rfl))
    rw [hsame] at hnone
    exact editors_eq hnone.2 htracks

/-- What others register while the extension is active outlasts it. -/
example :
    ((Life.begin {} .default 0).run [.proceed, .use (.register ⟨"v", "*"⟩), .deactivate,
        .proceed]).host.registry.editors = [⟨"v", "*"⟩] := by
  decide +kernel

end LanguageClient.Extension
