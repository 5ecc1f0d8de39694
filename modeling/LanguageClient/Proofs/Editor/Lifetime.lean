import LanguageClient.Editor.Run
import LanguageClient.Proofs.Editor.Registry
import Mathlib.Data.List.Perm.Basic

/-!
# `LanguageClient.Proofs.Editor.Lifetime`: how long a registration lasts

A registration lasts until its handle is disposed of, by anybody, or until its registry is
dropped (`Desk.Lives`). That is all there is to know of a registry, whatever was done to it
and in which order: an old handle, or one used twice, does nothing to a later registration
of the same view type.

`Desk.Sound` is the invariant. It says that the registry tracks the registrations that last,
and that what the activation has released are the batches it kept, each one newest first.

* `Desk.Sound.step`: every event keeps it.
* `faithful_run`: what it means for the answers of a registry after a run.
-/

set_option autoImplicit false

namespace LanguageClient.Editor

/-- The label of something released, unless it is a registration. -/
def Disposable.label? : Disposable → Option String
  | .registration _ => none
  | .labelled label => some label

namespace Desk

variable {d : Desk} {h : Handle} {e : FileEditor} {x : Disposable}

/-- A handle that the present registry gave out for an editor, and that neither anybody nor
the activation has disposed of. -/
structure Lives (d : Desk) (h : Handle) (e : FileEditor) : Prop where
  granted : d.granted[h]? = some e
  present : d.first ≤ h
  undisposed : h ∉ d.disposed
  unreleased : .registration h ∉ d.released

/-- A handle that lasts was given out, so it is below the number of those. -/
theorem Lives.lt_length (hlives : d.Lives h e) : h < d.granted.length :=
  (List.getElem?_eq_some_iff.mp hlives.granted).1

/-- What holds of a registry and an activation at every moment. -/
structure Sound (d : Desk) : Prop where
  tracks : Tracks d.registry d.Lives
  count : d.registry.registrations.length = d.granted.length
  first : d.first ≤ d.granted.length
  disposed : ∀ h ∈ d.disposed, h < d.granted.length
  /-- What the activation has or had are things that were given to it. -/
  given : ∀ x ∈ d.released ++ d.subscriptions.kept, x.isGiven d.granted.length = true
  kept : d.subscriptions.kept = d.batch.reverse
  released : d.released = d.batches.flatMap List.reverse
  labels : d.subscriptions.released = d.released.filterMap Disposable.label?
  finished : d.isOver = true → d.batch = []

/-- At first nothing is registered and nothing is kept. No handle has been given out, so every part
of the invariant that speaks of one is empty. -/
theorem sound_nil : Sound {} where
  tracks := tracks_nil.congr fun _ _ => ⟨nofun, fun hlives => nomatch hlives.granted⟩
  count := rfl
  first := Nat.le_refl 0
  disposed := nofun
  given := nofun
  kept := rfl
  released := rfl
  labels := rfl
  finished := nofun

/-! ### Registrations -/

/-- Which registrations last depends on four of the things that are noted. So an event that changes
none of them leaves what the registry tracks as it was, whatever else it does. -/
theorem tracks_congr {after : Desk} {r : Registry} (htracks : Tracks r d.Lives)
    (hgranted : after.granted = d.granted) (hfirst : after.first = d.first)
    (hdisposed : after.disposed = d.disposed) (hreleased : after.released = d.released) :
    Tracks r after.Lives := by
  refine htracks.congr fun h e => ⟨?_, ?_⟩
  · rintro ⟨hone, htwo, hthree, hfour⟩
    exact ⟨hgranted ▸ hone, hfirst ▸ htwo, hdisposed ▸ hthree, hreleased ▸ hfour⟩
  · rintro ⟨hone, htwo, hthree, hfour⟩
    exact ⟨hgranted ▸ hone, hfirst ▸ htwo, hdisposed ▸ hthree, hreleased ▸ hfour⟩

/-- What lasts after a registration is what lasted before, and the new one. A handle that is given
out now has not been disposed of before, which is where the invariant is needed: the notes are about
handles given out earlier. -/
theorem Sound.lives_grant (hd : d.Sound) {h : Handle} {f : FileEditor} {registry : Registry} :
    Lives { d with registry, granted := d.granted ++ [e] } h f ↔
      d.Lives h f ∨ h = d.granted.length ∧ f = e := by
  constructor
  · intro hlives
    obtain ⟨hgranted, hpresent, hundisposed, hunreleased⟩ := hlives
    -- The handle is an older one, or the one just given out.
    rcases Nat.lt_or_ge h d.granted.length with hlt | hge
    · rw [List.getElem?_append_left hlt] at hgranted
      exact .inl ⟨hgranted, hpresent, hundisposed, hunreleased⟩
    · rw [List.getElem?_append_right hge, List.getElem?_singleton] at hgranted
      split at hgranted
      · rename_i hzero
        have hlast : h = d.granted.length := Nat.le_antisymm (Nat.sub_eq_zero_iff_le.mp hzero) hge
        exact .inr ⟨hlast, (Option.some.inj hgranted).symm⟩
      · exact nomatch hgranted
  · rintro (hlives | ⟨rfl, rfl⟩)
    · have hgranted : (d.granted ++ [e])[h]? = some f :=
        (List.getElem?_append_left hlives.lt_length).trans hlives.granted
      exact ⟨hgranted, hlives.present, hlives.undisposed, hlives.unreleased⟩
    · -- Neither somebody nor the activation can have named the new handle yet.
      refine ⟨List.getElem?_concat_length, hd.first, ?_, ?_⟩
      · intro hmem
        exact absurd (hd.disposed _ hmem) (lt_irrefl _)
      · intro hmem
        have hgiven := hd.given _ (List.mem_append_left _ hmem)
        exact absurd (of_decide_eq_true hgiven) (lt_irrefl _)

/-- Disposing of a handle ends its own registration and no other. -/
theorem lives_dispose {h' : Handle} : (d.dispose h').Lives h e ↔ h ≠ h' ∧ d.Lives h e := by
  constructor
  · rintro ⟨hgranted, hpresent, hundisposed, hunreleased⟩
    simp only [dispose, List.mem_append, List.mem_singleton, not_or] at hundisposed
    exact ⟨hundisposed.2, hgranted, hpresent, hundisposed.1, hunreleased⟩
  · rintro ⟨hne, hlives⟩
    refine ⟨hlives.granted, hlives.present, ?_, hlives.unreleased⟩
    simp only [dispose, List.mem_append, List.mem_singleton, not_or]
    exact ⟨hlives.undisposed, hne⟩

/-- The activation ends a registration by releasing it, and releasing a mere label ends nothing. -/
theorem lives_release : (d.release x).Lives h e ↔ x ≠ .registration h ∧ d.Lives h e := by
  constructor
  · rintro ⟨hgranted, hpresent, hundisposed, hunreleased⟩
    simp only [release, List.mem_append, List.mem_singleton, not_or] at hunreleased
    exact ⟨Ne.symm hunreleased.2, hgranted, hpresent, hundisposed, hunreleased.1⟩
  · rintro ⟨hne, hlives⟩
    refine ⟨hlives.granted, hlives.present, hlives.undisposed, ?_⟩
    simp only [release, List.mem_append, List.mem_singleton, not_or]
    exact ⟨hlives.unreleased, Ne.symm hne⟩

/-- What was given stays given when more handles are. -/
theorem isGiven_mono {count more : Nat} (hle : count ≤ more) (hgiven : x.isGiven count = true) :
    x.isGiven more = true := by
  cases x with
  | labelled => rfl
  | registration h => exact decide_eq_true (Nat.lt_of_lt_of_le (of_decide_eq_true hgiven) hle)

/-- A registration keeps the invariant. The registry gives out the handle that the notes count next,
so that the two agree on what the handle stands for. -/
theorem Sound.register (hd : d.Sound) (e : FileEditor) : (d.step (.register e)).Sound := by
  unfold step
  dsimp only
  split
  · rename_i h registry hok
    obtain ⟨hhandle, hcount, htracks⟩ := hd.tracks.register hok
    rw [hd.count] at hhandle
    subst hhandle
    have hmore : d.granted.length ≤ (d.granted ++ [e]).length := by simp
    refine ⟨htracks.congr fun h f => hd.lives_grant.symm, ?_, hd.first.trans hmore, ?_, ?_, hd.kept,
      hd.released, hd.labels, hd.finished⟩
    · show registry.registrations.length = (d.granted ++ [e]).length
      rw [hcount, List.length_append, List.length_singleton]
    · intro h hmem
      exact lt_of_lt_of_le (hd.disposed h hmem) hmore
    · intro x hmem
      exact isGiven_mono hmore (hd.given x hmem)
  · -- A registration that fails leaves everything as it was.
    exact hd

/-- Disposing of a handle that was given out keeps the invariant, even if it has been disposed of
before. -/
theorem Sound.dispose (hd : d.Sound) (hlt : h < d.granted.length) : (d.dispose h).Sound := by
  obtain ⟨hcount, htracks⟩ := hd.tracks.dispose h
  refine ⟨htracks.congr fun _ _ => lives_dispose.symm, hcount.trans hd.count, hd.first, ?_,
    hd.given, hd.kept, hd.released, hd.labels, hd.finished⟩
  intro h' hmem
  rcases List.mem_append.mp hmem with hmem | hmem
  · exact hd.disposed h' hmem
  · obtain rfl := List.mem_singleton.mp hmem
    exact hlt

/-- Dropping the registry keeps the invariant. The next registry goes on counting handles, and no
old handle counts for it. -/
theorem Sound.dropRegistry (hd : d.Sound) : (d.step .dropRegistry).Sound := by
  obtain ⟨hcount, htracks⟩ := Tracks.drop d.registry
  refine ⟨htracks.congr fun h e => ⟨nofun, ?_⟩, hcount.trans hd.count, le_rfl, hd.disposed,
    hd.given, hd.kept, hd.released, hd.labels, hd.finished⟩
  -- All handles so far come before the first one of the next registry.
  intro hlives
  exact absurd hlives.lt_length hlives.present.not_gt

/-! ### What is kept -/

/-- What is kept comes in front of what was kept before and at the end of the batch. Nothing is kept
any more once it is over, which is the first hypothesis; the second is that only handles given out
are kept. -/
theorem Sound.keep (hd : d.Sound) (hover : d.isOver = false)
    (hgiven : x.isGiven d.granted.length = true) : (d.keep x).Sound := by
  refine ⟨tracks_congr hd.tracks rfl rfl rfl rfl, hd.count, hd.first,
    hd.disposed, ?_, ?_, hd.released, hd.labels, ?_⟩
  · intro y hmem
    rcases List.mem_append.mp hmem with hmem | hmem
    · exact hd.given y (List.mem_append_left _ hmem)
    · rcases List.mem_cons.mp hmem with rfl | hmem
      · exact hgiven
      · exact hd.given y (List.mem_append_right _ hmem)
  · -- Things are released in reverse, so the last of the batch is the first of what is kept.
    show x :: d.subscriptions.kept = (d.batch ++ [x]).reverse
    rw [hd.kept, List.reverse_append]
    rfl
  · intro hnow
    exact nomatch hover.symm.trans hnow

/-- What releasing a series of things does to the registry and to the labels, and how it is noted.
The other parts of the desk stay as they are, so the invariant has to be checked for these three
only. -/
theorem foldl_release (d : Desk) (xs : List Disposable) :
    xs.foldl release d =
      { d with
        registry := (xs.foldl Subscriptions.release (d.registry, d.subscriptions.released)).1
        subscriptions :=
          { d.subscriptions with
            released :=
              (xs.foldl Subscriptions.release (d.registry, d.subscriptions.released)).2 }
        released := d.released ++ xs } := by
  induction xs generalizing d with
  | nil =>
    rw [List.append_nil]
    rfl
  | cons x xs ih =>
    rw [List.foldl_cons, ih, release, List.append_assoc]
    rfl

/-- The activation releases as it does without the notes. They are kept for the statements alone and
change nothing about what is released. -/
theorem disposeAll_eq (d : Desk) :
    (d.disposeAll.subscriptions, d.disposeAll.registry) =
      d.subscriptions.disposeAll d.registry := by
  rw [disposeAll, foldl_release]
  rfl

/-- The registry follows each release, and so a series of them. No more of the invariant is needed
for that than what it tracks. -/
theorem tracks_foldl_release (htracks : Tracks d.registry d.Lives) (xs : List Disposable) :
    (xs.foldl release d).registry.registrations.length = d.registry.registrations.length ∧
      Tracks (xs.foldl release d).registry (xs.foldl release d).Lives := by
  induction xs generalizing d with
  | nil => exact ⟨rfl, htracks⟩
  | cons x xs ih =>
    have hone : (d.release x).registry.registrations.length = d.registry.registrations.length ∧
        Tracks (d.release x).registry (d.release x).Lives := by
      -- A label is no registration, and a registration is disposed of by its handle.
      cases x with
      | labelled label =>
        refine ⟨rfl, htracks.congr fun h e => ?_⟩
        rw [lives_release]
        exact (and_iff_right nofun).symm
      | registration h =>
        obtain ⟨hcount, hdisposed⟩ := htracks.dispose h
        refine ⟨hcount, hdisposed.congr fun h' e => ?_⟩
        rw [lives_release, ne_eq, ne_eq, Disposable.registration.injEq, eq_comm]
    obtain ⟨hcount, hrest⟩ := ih hone.2
    exact ⟨hcount.trans hone.1, hrest⟩

/-- The labels that are released are those of the series, in its order. They do not depend on the
registry. -/
theorem labels_foldl_release (state : Registry × List String) (xs : List Disposable) :
    (xs.foldl Subscriptions.release state).2 = state.2 ++ xs.filterMap Disposable.label? := by
  induction xs generalizing state with
  | nil => simp
  | cons x xs ih =>
    rw [List.foldl_cons, ih]
    cases x with
    | registration h => rfl
    | labelled label => simp [Subscriptions.release, Disposable.label?]

/-- Disposing of everything closes the batch: it is released from its end, and nothing is kept any
more. -/
theorem Sound.disposeAll (hd : d.Sound) : d.disposeAll.Sound := by
  have hall := foldl_release d d.subscriptions.kept
  have hlabels := labels_foldl_release (d.registry, d.subscriptions.released) d.subscriptions.kept
  obtain ⟨hcount, htracks⟩ := tracks_foldl_release hd.tracks d.subscriptions.kept
  rw [hall] at hcount htracks
  unfold Desk.disposeAll
  rw [hall]
  refine ⟨tracks_congr htracks rfl rfl rfl rfl, hcount.trans hd.count,
    hd.first, hd.disposed, ?_, rfl, ?_, ?_, fun _ => rfl⟩
  · intro x hmem
    refine hd.given x ?_
    simpa using hmem
  · -- What was kept is the batch that is closed now, and it is released from its end.
    show d.released ++ d.subscriptions.kept = (d.batches ++ [d.batch]).flatMap List.reverse
    rw [hd.released, hd.kept, List.flatMap_append, List.flatMap_singleton]
  · show (d.subscriptions.kept.foldl Subscriptions.release _).2 =
      (d.released ++ d.subscriptions.kept).filterMap Disposable.label?
    rw [hlabels, hd.labels, List.filterMap_append]

/-! ### Runs -/

/-- Every event keeps the invariant. An event that names a handle not given out, or that comes after
the end, changes nothing. -/
theorem Sound.step (hd : d.Sound) (e : Event) : (d.step e).Sound := by
  cases e with
  | register e => exact hd.register e
  | dispose h =>
    -- A handle that was never given out names nothing, and the desk is left as it is.
    unfold Desk.step
    dsimp only
    split
    · rename_i hlt
      exact hd.dispose hlt
    · exact hd
  | keep x =>
    -- Nothing is kept after the end, and no registration that was never given out.
    unfold Desk.step
    dsimp only
    split
    · rename_i hkeeps
      rw [Bool.and_eq_true, Bool.not_eq_true'] at hkeeps
      exact hd.keep hkeeps.1 hkeeps.2
    · exact hd
  | disposeAll =>
    unfold Desk.step
    dsimp only
    split
    · exact hd
    · exact hd.disposeAll
  | dropSubscriptions =>
    -- Dropping does what disposing does, and ends the subscriptions besides. So the invariant of
    -- the first is taken over, and two of its parts are said anew.
    unfold Desk.step
    dsimp only
    split
    · exact hd
    · have hall := hd.disposeAll
      exact { hall with
        tracks := tracks_congr hall.tracks rfl rfl rfl rfl
        finished := fun _ => rfl }
  | dropRegistry => exact hd.dropRegistry

/-- The invariant holds after any run, from an empty desk. -/
theorem sound_run (events : List Event) : (run {} events).Sound := by
  unfold run
  exact List.foldlRecOn events Desk.step sound_nil fun _ hd e _ => hd.step e

/-! ### Answers -/

/-- A registration of a view type that lasts. -/
def Holds (d : Desk) (h : Handle) (viewType : String) : Prop :=
  ∃ e, d.Lives h e ∧ e.viewType = viewType

/-- What one can rely on, whatever was done. -/
structure Faithful (d : Desk) : Prop where
  /-- A view type is registered as long as a registration of it lasts. -/
  registered : ∀ v, d.registry.isRegistered v = true ↔ ∃ h, d.Holds h v
  /-- No more than one does. -/
  one : ∀ v h h', d.Holds h v → d.Holds h' v → h = h'
  invalid : ∀ e, d.registry.register e = .error (.invalidViewType e.viewType) ↔
    Unusable e.viewType
  duplicate : ∀ e, d.registry.register e = .error (.duplicateViewType e.viewType) ↔
    ¬ Unusable e.viewType ∧ ∃ h, d.Holds h e.viewType
  success : ∀ e, (∃ after, d.registry.register e = .ok (d.granted.length, after)) ↔
    ¬ Unusable e.viewType ∧ ¬ ∃ h, d.Holds h e.viewType
  refused : ∀ e error, d.registry.register e = .error error → d.step (.register e) = d
  /-- Disposing of a handle takes away its own editor, and leaves those of other handles. -/
  disposing : ∀ h e, e ∈ (d.registry.dispose h).editors ↔ ∃ h', h' ≠ h ∧ d.Lives h' e
  /-- Everything that came to be kept is released once, or still kept. -/
  once : (d.released ++ d.subscriptions.kept).Perm (d.batches.flatten ++ d.batch)
  newestFirst : d.released = d.batches.flatMap List.reverse
  labels : d.subscriptions.released = d.released.filterMap Disposable.label?
  finished : d.isOver = true → d.subscriptions.kept = []
  /-- The least view type wins whose pattern has the form of the path's name. -/
  resolves : ∀ p v, d.registry.resolve p = some v ↔
    (∃ h e, d.Lives h e ∧ e.viewType = v ∧ e.IsFor p) ∧
      ∀ h e, d.Lives h e → e.IsFor p → v ≤ e.viewType
  unresolved : ∀ p, d.registry.resolve p = none ↔ ∀ h e, d.Lives h e → ¬ e.IsFor p
  /-- It does not matter how the same registrations have come to last. -/
  order : ∀ events, (∀ e, (∃ h, d.Lives h e) ↔ ∃ h, (run {} events).Lives h e) →
    ∀ p, d.registry.resolve p = (run {} events).registry.resolve p

/-- What one can rely on, whatever was done and in which order. Each answer of the registry is told
from what it tracks, and each statement about the activation from the batches. -/
theorem faithful_run (events : List Event) : (run {} events).Faithful := by
  have hd := sound_run events
  constructor
  case registered =>
    intro v
    exact hd.tracks.isRegistered_iff
  case one =>
    rintro v h h' ⟨e, hlives, rfl⟩ ⟨e', hlives', hsame⟩
    exact hd.tracks.unique h h' e e' hlives hlives' hsame.symm
  -- Which answer a registration gets depends on the editor and on what is registered, and on
  -- nothing else of the past.
  case invalid => exact fun e => register_eq_invalid_iff
  case duplicate => exact fun e => hd.tracks.register_eq_duplicate_iff
  case success =>
    intro e
    rw [← hd.count]
    exact hd.tracks.register_eq_ok_iff
  case refused =>
    intro e error herror
    rw [step, herror]
  case disposing => exact fun h e => (hd.tracks.dispose h).2.mem e
  case once =>
    rw [hd.released, hd.kept]
    -- A batch and its reverse have the same things.
    have hbatches := List.Perm.flatMap_left (run {} events).batches fun b _ => b.reverse_perm
    rw [List.flatMap_id'] at hbatches
    exact hbatches.append (List.reverse_perm _)
  case newestFirst => exact hd.released
  case labels => exact hd.labels
  case finished =>
    intro hover
    rw [hd.kept, hd.finished hover, List.reverse_nil]
  case resolves => exact fun p v => hd.tracks.resolve_eq_some_iff
  case unresolved => exact fun p => hd.tracks.resolve_eq_none_iff
  -- Two registries that track the same editors resolve alike, however they came to do so.
  case order => exact fun events hsame => hd.tracks.resolve_congr (sound_run events).tracks hsame

-- The handle 0 is used again after another registration of the same view type.
example :
    (run {} [.register ⟨"v", "a"⟩, .dispose 0, .register ⟨"v", "*"⟩, .dispose 0]).registry.editors =
      [⟨"v", "*"⟩] := rfl

end Desk

end LanguageClient.Editor
