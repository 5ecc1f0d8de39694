import LanguageClient.Proofs.Status.Indicator

/-!
# `LanguageClient.Proofs.Status.Rendering`: what is rendered of an indicator

The text and the tooltip of an item are set by two calls, and only the first of them renders.
So it matters whether the item can be seen when an indicator changes what it shows. It cannot
when the start is shown: the item is revealed afterwards, with both. It can when the indicator
goes on from there to show that the session is running: the new text is rendered beside the
old tooltip, and nothing is rendered after that.

* `renderings`, `rendered_run`: what is rendered.
* `agrees_run`: the item has the text and the tooltip of what its indicator shows.
* `coherent_of_not_overtaken`, `rendering`: the renderings are coherent unless the indicator has
  gone on from the start to running.
-/

set_option autoImplicit false

namespace LanguageClient.Status

/-- The start is shown first and running after it, before the indicator is torn down. -/
def Overtaken (events : List Event) : Prop :=
  ∃ later, shows events = .showStarting :: later ∧ .showRunning ∈ later

/-- A rendering has the text and the tooltip of a descriptor. -/
def Rendering.Shows (r : Rendering) (d : Descriptor) : Prop :=
  r.text = d.text ∧ r.tooltip = d.tooltip

namespace Indicator

variable (id : String)

/-- Tearing an indicator down hides its item and gives it up. Text and tooltip stay as they were set
last. -/
theorem item_tearDown {i : Indicator} (h : i.disposed = false) :
    i.tearDown.item id = { i.item id with visible := false, disposed := true } := by
  unfold tearDown
  rw [if_neg (by rw [h]; exact Bool.false_ne_true)]
  simp only [item, call, LoggedItem.applyAll, List.foldl_append]
  rfl

/-! ### What is rendered -/

/-- What is rendered while an indicator shows one thing after another. -/
def renderings : List Event → List Rendering
  | .showStarting :: later =>
    ⟨itemName, Descriptor.starting.tooltip, Descriptor.starting.text⟩ ::
      if .showRunning ∈ later then
        [⟨itemName, Descriptor.starting.tooltip, Descriptor.running.text⟩]
      else []
  | _ => []

/-- What is rendered of the four states. The start is rendered when its item is revealed, and
running as soon as its text is set. -/
theorem rendered_ofShows (events : List Event) :
    ((ofShows events).item id).rendered = renderings events := by
  match events with
  | [] | .showRunning :: _ | .tearDown :: _ | .drop :: _ => rfl
  | .showStarting :: later =>
    rw [ofShows, renderings]
    split
    · rfl
    · rfl

/-- Tearing an indicator down renders nothing, so what is rendered depends on the shows before
it. -/
theorem rendered_run (events : List Event) :
    ((run {} events).item id).rendered = renderings (shows events) := by
  rw [run_eq]
  split
  · rename_i hall
    rw [rendered_ofShows, hall]
  · rw [item_tearDown id (disposed_ofShows _), rendered_ofShows]

/-- The item can be seen if the start has been shown first, and only shows have followed. Running
alone does not reveal it. -/
theorem exists_of_visible {events : List Event} (h : ((run {} events).item id).visible = true) :
    ∃ later, events = .showStarting :: later ∧ shows events = events := by
  rw [run_eq] at h
  split at h
  · rename_i hall
    match events, h with
    | .showStarting :: later, _ => exact ⟨later, rfl, hall⟩
  · rw [item_tearDown id (disposed_ofShows _)] at h
    exact nomatch h

/-- In each of the four states the item has the text and the tooltip of what its indicator shows.
The four are reached by the events that show something, up to a teardown. -/
theorem agrees_ofShows {events : List Event} {d : Descriptor}
    (h : (ofShows events).current = some d) :
    ((ofShows events).item id).text = d.text ∧ ((ofShows events).item id).tooltip = d.tooltip := by
  match events with
  | [] => exact nomatch h
  | .showStarting :: later =>
    rw [ofShows] at h ⊢
    split at h
    · -- Running was shown later, and has replaced what the start has shown.
      rename_i hmem
      obtain rfl : Descriptor.running = d := Option.some.inj h
      rw [if_pos hmem]
      exact ⟨rfl, rfl⟩
    · rename_i hmem
      obtain rfl : Descriptor.starting = d := Option.some.inj h
      rw [if_neg hmem]
      exact ⟨rfl, rfl⟩
  | .showRunning :: _ | .tearDown :: _ | .drop :: _ =>
    obtain rfl : Descriptor.running = d := Option.some.inj h
    exact ⟨rfl, rfl⟩

/-- Whatever has been rendered, the item itself has the text and the tooltip of what its indicator
shows. So the log is wrong about the item, and not the other way round. -/
theorem agrees_run {events : List Event} {d : Descriptor} (h : (run {} events).current = some d) :
    ((run {} events).item id).text = d.text ∧ ((run {} events).item id).tooltip = d.tooltip := by
  rw [run_eq] at h ⊢
  split at h
  · rename_i hall
    rw [if_pos hall]
    exact agrees_ofShows id h
  · rename_i hnot
    rw [current_tearDown] at h
    rw [if_neg hnot, item_tearDown id (disposed_ofShows _)]
    exact agrees_ofShows id h

end Indicator

open Indicator

/-- An indicator that has gone on to running has done so in every longer run. A teardown does not
undo this, as it ends what is shown. -/
theorem Overtaken.mono {before events : List Event} (h : Overtaken before)
    (hbefore : before <+: events) : Overtaken events := by
  obtain ⟨rest, rfl⟩ := hbefore
  obtain ⟨later, hshows, hmem⟩ := h
  unfold Overtaken shows at *
  rw [List.takeWhile_append]
  split
  · -- Nothing has torn the indicator down yet, so what follows is shown too.
    rename_i hall
    rw [(List.takeWhile_prefix _).eq_of_length hall] at hshows
    exact ⟨later ++ rest.takeWhile Event.isShow, by rw [hshows]; rfl, List.mem_append_left _ hmem⟩
  · exact ⟨later, hshows, hmem⟩

/-- The log agrees with an indicator: no rendering mixes what it has shown, and as long as the
item can be seen, the last one shows what the indicator shows. -/
structure Coherent (id : String) (events : List Event) : Prop where
  unmixed : ∀ r ∈ ((run {} events).item id).rendered, r.Shows .starting ∨ r.Shows .running
  current : ∀ before, before <+: events → ((run {} before).item id).visible = true →
    ∃ r d, ((run {} before).item id).rendered.getLast? = some r ∧
      (run {} before).current = some d ∧ r.Shows d

/-- No descriptor has the text of running and the tooltip of the start, so a rendering with both is
of neither. -/
theorem not_shows_mixed : let r : Rendering :=
      ⟨itemName, Descriptor.starting.tooltip, Descriptor.running.text⟩
    ¬(r.Shows .starting ∨ r.Shows .running) := by
  unfold Rendering.Shows
  decide

/-- As long as the indicator has not gone on from the start to running, the log agrees with it. Then
the start is all that can have been rendered, and it is what is shown whenever the item can be
seen. -/
theorem coherent_of_not_overtaken {events : List Event} (id : String) (h : ¬Overtaken events) :
    Coherent id events := by
  have hnotRunning : ∀ before, before <+: events → ∀ later, shows before = .showStarting :: later →
      .showRunning ∉ later :=
    fun before hbefore later hshows hmem => h (Overtaken.mono ⟨later, hshows, hmem⟩ hbefore)
  constructor
  · -- All that is rendered is the start.
    intro r hr
    rw [rendered_run] at hr
    unfold renderings at hr
    split at hr
    · rename_i later hshows
      rw [if_neg (hnotRunning events (List.prefix_refl _) later hshows), List.mem_singleton] at hr
      subst hr
      exact .inl ⟨rfl, rfl⟩
    · exact nomatch hr
  · intro before hbefore hvisible
    obtain ⟨later, hstart, hall⟩ := exists_of_visible id hvisible
    have hnever := hnotRunning before hbefore later (hall.trans hstart)
    -- Of the states in which the item can be seen only this one is left.
    have hrun : run {} before = starting := by
      rw [run_eq, if_pos hall, hstart, ofShows, if_neg hnever]
    rw [hrun]
    exact ⟨_, .starting, rfl, rfl, rfl, rfl⟩

/-- Of an indicator the start is rendered when it is shown first, and the text of running beside
the tooltip of the start when running is shown later, before the indicator is torn down. Nothing
else is rendered. So the log agrees with an indicator unless it goes on from the start to
running. -/
theorem rendering (id : String) (events : List Event) :
    ((run {} events).item id).rendered = renderings (shows events) ∧
      (Coherent id events ↔ ¬Overtaken events) := by
  refine ⟨rendered_run id events, fun hcoherent hovertaken => ?_, coherent_of_not_overtaken id⟩
  obtain ⟨later, hshows, hmem⟩ := hovertaken
  refine not_shows_mixed (hcoherent.unmixed _ ?_)
  rw [rendered_run, hshows, renderings, if_pos hmem]
  exact List.mem_cons_of_mem _ List.mem_cons_self

/-- A session that becomes ready: its last rendering has the old tooltip, since setting the new one
renders nothing. -/
theorem incoherent_of_running :
    let item := (run {} [.showStarting, .showRunning]).item "beef-lsp"
    ¬Coherent "beef-lsp" [.showStarting, .showRunning] ∧
      item.rendered.getLast? = some ⟨"Beef Lsp Status", "Status: Starting", "$(check) Beef Lsp"⟩ ∧
      item.text = Descriptor.running.text ∧ item.tooltip = Descriptor.running.tooltip := by
  refine ⟨fun h => ?_, rfl, rfl, rfl⟩
  refine not_shows_mixed (h.unmixed _ ?_)
  exact List.mem_cons_of_mem _ List.mem_cons_self

end LanguageClient.Status
