import LanguageClient.Editor.Registry
import LanguageClient.Proofs.Text.Utf8
import Mathlib.Data.List.Pairwise
import Mathlib.Data.String.Basic

/-!
# `LanguageClient.Proofs.Editor.Registry`: registrations that count

A registry has lists of its own: editors in order, and handles with marks. What it means to
its users is a relation alone, which handles count and for which editors (`Tracks`). Each
operation changes that relation in the obvious way, and whatever can be asked of a registry
is answered by it.

* `Tracks.register`, `Tracks.dispose`, `Tracks.drop`: what operations do to the relation.
* `Tracks.isRegistered_iff`, `Tracks.register_eq_ok_iff`, `Tracks.resolve_eq_some_iff`: what it
  says about the answers.
-/

set_option autoImplicit false

namespace LanguageClient.Editor

/-! ### Names and paths -/

/-- A view type that no editor can have. -/
def Unusable (viewType : String) : Prop :=
  viewType = "" ∨ ∃ c ∈ viewType.toList, Text.isBlank c = true

/-- The check of a view type refuses what no editor can have: an empty name or one with a blank. -/
theorem isInvalid_iff {viewType : String} :
    Registry.isInvalid viewType = true ↔ Unusable viewType := by
  unfold Registry.isInvalid Unusable
  rw [Bool.or_eq_true, String.isEmpty_iff, List.any_eq_true]

/-- Whether an editor is for a path: the last component is text and has the name of the
pattern, or the ending that comes behind its star. -/
def FileEditor.IsFor (e : FileEditor) (p : Path) : Prop :=
  ∃ name : List Char, p.name? = some (Text.encode name) ∧
    (e.pattern.toList = name ∧ name.head? ≠ some '*' ∨
      ∃ ending, e.pattern.toList = '*' :: ending ∧ ending <:+ name)

/-- A pattern matches a name if the two are the same, or if the pattern is a star and the ending of
the name. A name that begins with a star itself is never matched as a whole, since its pattern is
then read as a star with an ending. -/
theorem matchesName_iff {pattern name : List Char} :
    matchesName pattern name = true ↔
      (pattern = name ∧ name.head? ≠ some '*' ∨
        ∃ ending, pattern = '*' :: ending ∧ ending <:+ name) := by
  unfold matchesName
  split
  · rename_i ending
    rw [List.isSuffixOf_iff_suffix]
    constructor
    · exact fun h => .inr ⟨ending, rfl, h⟩
    · -- The same text cannot begin with a star here and without one there.
      rintro (⟨rfl, hstar⟩ | ⟨_, heq, h⟩)
      · exact absurd rfl hstar
      · exact (List.cons.inj heq).2 ▸ h
  · rename_i hplain
    rw [beq_iff_eq]
    constructor
    · rintro rfl
      refine .inl ⟨rfl, fun hstar => ?_⟩
      obtain ⟨ending, rfl⟩ := List.head?_eq_some_iff.mp hstar
      exact hplain ending rfl
    · rintro (⟨rfl, -⟩ | ⟨ending, rfl, -⟩)
      · rfl
      · exact absurd rfl (hplain ending)

/-- An editor claims a path exactly if it is for it. A name that is no text is claimed by none,
which is why `IsFor` asks for the text whose encoding the name is. -/
theorem claims_iff {e : FileEditor} {p : Path} : e.claims p = true ↔ e.IsFor p := by
  -- A name is decoded exactly if it is the encoding of a text. This takes the decoding out of both
  -- directions.
  have hname : ∀ {name : List Char},
      p.name?.bind Text.decode? = some name ↔ p.name? = some (Text.encode name) := by
    intro name
    rw [Option.bind_eq_some_iff]
    constructor
    · rintro ⟨bytes, hbytes, hdecode⟩
      rw [hbytes, Text.decode?_eq_some_iff.mp hdecode]
    · exact fun h => ⟨_, h, Text.decode?_eq_some_iff.mpr rfl⟩
  unfold FileEditor.claims FileEditor.IsFor
  split
  · rename_i name h
    rw [matchesName_iff]
    constructor
    · exact fun hmatches => ⟨name, hname.mp h, hmatches⟩
    · rintro ⟨other, hother, hmatches⟩
      obtain rfl : name = other := Option.some.inj (h.symm.trans (hname.mpr hother))
      exact hmatches
  · -- Without a name that is a text there is nothing to match, on either side.
    rename_i hnone
    constructor
    · exact nofun
    · rintro ⟨name, h, -⟩
      exact nomatch hnone.symm.trans (hname.mpr h)

/-! ### Editors in order -/

/-- Editors in the order of their view types, each view type once. -/
def Ordered (editors : List FileEditor) : Prop :=
  editors.Pairwise fun e f => e.viewType < f.viewType

variable {editors : List FileEditor} {e f : FileEditor}

/-- The editors after a registration are the new one and those before, wherever it is put. -/
theorem mem_insert : f ∈ Registry.insert e editors ↔ f = e ∨ f ∈ editors := by
  induction editors with
  | nil => rw [Registry.insert, List.mem_singleton, List.mem_nil_iff, or_false]
  | cons g editors ih =>
    rw [Registry.insert]
    split
    · exact List.mem_cons
    · rw [List.mem_cons, ih, List.mem_cons, or_left_comm]

/-- The new editor is put in its place. It has a view type of its own, so the order stays strict. By
induction on the editors in front of that place, each of which remains before those that were behind
it. -/
theorem Ordered.insert (h : Ordered editors) (hnew : ∀ f ∈ editors, f.viewType ≠ e.viewType) :
    Ordered (Registry.insert e editors) := by
  induction editors with
  | nil => exact List.pairwise_singleton _ _
  | cons g editors ih =>
    obtain ⟨hfirst, hrest⟩ := List.pairwise_cons.mp h
    rw [Registry.insert]
    split
    · -- It comes in front of the others.
      rename_i hless
      refine List.pairwise_cons.mpr ⟨fun f hf => ?_, h⟩
      rcases List.mem_cons.mp hf with rfl | hf
      · exact hless
      · exact hless.trans (hfirst f hf)
    · -- It comes further behind, and the first editor is still before all.
      rename_i hnotless
      have hless : g.viewType < e.viewType :=
        lt_of_le_of_ne (not_lt.mp hnotless) (hnew g List.mem_cons_self)
      refine List.pairwise_cons.mpr ⟨fun f hf => ?_, ?_⟩
      · rcases mem_insert.mp hf with rfl | hf
        · exact hless
        · exact hfirst f hf
      · exact ih hrest fun f hf => hnew f (List.mem_cons_of_mem _ hf)

/-- Editors in order are told apart by their view types. So what is known of the view types of a
registry is known of its editors. -/
theorem Ordered.eq_of_viewType (h : Ordered editors) (he : e ∈ editors) (hf : f ∈ editors)
    (hsame : e.viewType = f.viewType) : e = f := by
  have : Std.Symm fun e f : FileEditor => e.viewType ≠ f.viewType := ⟨fun _ _ => Ne.symm⟩
  by_contra hne
  exact (List.Pairwise.imp ne_of_lt h).forall he hf hne hsame

/-- The first editor that has a property is the least of those that have it: the ones in front of it
do not, and the ones behind it are greater. -/
theorem Ordered.le_of_find? (h : Ordered editors) {p : FileEditor → Bool}
    (hfind : editors.find? p = some e) (hf : f ∈ editors) (hp : p f = true) :
    e.viewType ≤ f.viewType := by
  obtain ⟨-, before, behind, rfl, hbefore⟩ := List.find?_eq_some_iff_append.mp hfind
  obtain ⟨-, hrest, -⟩ := List.pairwise_append.mp h
  rcases List.mem_append.mp hf with hf | hf
  · have hnot := hbefore f hf
    rw [hp] at hnot
    exact nomatch hnot
  · rcases List.mem_cons.mp hf with rfl | hf
    · exact le_rfl
    · exact ((List.pairwise_cons.mp hrest).1 f hf).le

/-- The first editor found is the least one. As an equivalence it tells the answer without
mentioning the order of the list. -/
theorem Ordered.find?_eq_some_iff (h : Ordered editors) {p : FileEditor → Bool} :
    editors.find? p = some e ↔
      e ∈ editors ∧ p e = true ∧ ∀ f ∈ editors, p f = true → e.viewType ≤ f.viewType := by
  constructor
  · intro hfind
    exact ⟨List.mem_of_find?_eq_some hfind, List.find?_some hfind,
      fun f hf hp => h.le_of_find? hfind hf hp⟩
  · rintro ⟨he, hp, hleast⟩
    -- Something is found, and it can only be the least one.
    cases hfind : editors.find? p with
    | none => exact absurd hp (List.find?_eq_none.mp hfind e he)
    | some f =>
      have hf := List.mem_of_find?_eq_some hfind
      have hsame := le_antisymm (hleast f hf (List.find?_some hfind)) (h.le_of_find? hfind he hp)
      rw [h.eq_of_viewType he hf hsame]

/-- The answer does not depend on how the same editors are listed: in order they can be listed in
one way only. -/
theorem Ordered.find?_congr {others : List FileEditor} (h : Ordered editors)
    (hothers : Ordered others) (hmem : ∀ e, e ∈ editors ↔ e ∈ others) (p : FileEditor → Bool) :
    editors.find? p = others.find? p := by
  ext e
  rw [h.find?_eq_some_iff, hothers.find?_eq_some_iff]
  simp only [hmem]

/-! ### Registrations -/

/-- What a registry knows: which handles count, and for which editors. -/
structure Tracks (r : Registry) (live : Handle → FileEditor → Prop) : Prop where
  ordered : Ordered r.editors
  mem : ∀ e, e ∈ r.editors ↔ ∃ h, live h e
  /-- The handles without a mark are those that count. -/
  unmarked : ∀ h v, r.registrations[h]? = some ⟨v, false⟩ ↔ ∃ e, live h e ∧ e.viewType = v
  /-- No two handles count for one view type. -/
  unique : ∀ h h' e e', live h e → live h' e' → e.viewType = e'.viewType → h = h'

variable {r after : Registry} {live live' : Handle → FileEditor → Prop} {h : Handle}

/-- Only which handles count, and for what, matters. -/
theorem Tracks.congr (hr : Tracks r live) (hsame : ∀ h e, live h e ↔ live' h e) :
    Tracks r live' := by
  obtain rfl : live = live' := funext₂ fun h e => propext (hsame h e)
  exact hr

/-- No handle counts for an empty registry. -/
theorem tracks_nil : Tracks {} fun _ _ => False where
  ordered := .nil
  mem _ := ⟨nofun, nofun⟩
  unmarked _ _ := ⟨nofun, nofun⟩
  unique := nofun

/-- A handle that counts has been given out. -/
theorem Tracks.lt_length (hr : Tracks r live) (hlive : live h e) : h < r.registrations.length :=
  (List.getElem?_eq_some_iff.mp ((hr.unmarked h _).mpr ⟨e, hlive, rfl⟩)).1

/-- A view type is registered exactly if a handle counts for it. The registry looks at its editors,
and those are the ones for which some handle counts. -/
theorem Tracks.isRegistered_iff (hr : Tracks r live) {v : String} :
    r.isRegistered v = true ↔ ∃ h e, live h e ∧ e.viewType = v := by
  unfold Registry.isRegistered
  rw [List.any_eq_true]
  constructor
  · rintro ⟨e, he, hv⟩
    obtain ⟨h, hlive⟩ := (hr.mem e).mp he
    exact ⟨h, e, hlive, beq_iff_eq.mp hv⟩
  · rintro ⟨h, e, hlive, hv⟩
    exact ⟨e, (hr.mem e).mpr ⟨h, hlive⟩, beq_iff_eq.mpr hv⟩

/-- A registration that succeeds makes a new handle count, for its editor. The handle is the number
of those given out before, so that no old one can be mistaken for it. -/
theorem Tracks.register (hr : Tracks r live) (hok : r.register e = .ok (h, after)) :
    h = r.registrations.length ∧ after.registrations.length = h + 1 ∧
      Tracks after fun h' f => live h' f ∨ h' = h ∧ f = e := by
  unfold Registry.register at hok
  split at hok
  · exact nomatch hok
  split at hok
  · exact nomatch hok
  rename_i hnew
  obtain ⟨rfl, rfl⟩ := Prod.mk.inj (Except.ok.inj hok)
  -- No handle counts for the view type yet, or it would have been refused.
  have hother : ∀ h' f, live h' f → f.viewType ≠ e.viewType := fun h' f hlive hsame =>
    hnew (hr.isRegistered_iff.mpr ⟨h', f, hlive, hsame⟩)
  refine ⟨rfl, List.length_append, ?_, fun f => ?_, fun h' v => ?_, ?_⟩
  · refine hr.ordered.insert fun f hf => ?_
    obtain ⟨h', hlive⟩ := (hr.mem f).mp hf
    exact hother h' f hlive
  · rw [mem_insert, hr.mem, exists_or, or_comm]
    simp only [exists_eq_left]
  · -- The new handle has no mark, and it is behind the others.
    rw [List.getElem?_append]
    split
    · rename_i hlt
      rw [hr.unmarked]
      refine exists_congr fun f => and_congr_left fun _ => (or_iff_left ?_).symm
      exact fun hnow => absurd hnow.1 hlt.ne
    · rename_i hge
      constructor
      · intro hlast
        rw [List.getElem?_singleton] at hlast
        split at hlast
        · rename_i hzero
          cases hlast
          have hlast := Nat.le_antisymm (Nat.sub_eq_zero_iff_le.mp hzero) (Nat.not_lt.mp hge)
          exact ⟨e, .inr ⟨hlast, rfl⟩, rfl⟩
        · exact nomatch hlast
      · rintro ⟨f, hlive | ⟨rfl, rfl⟩, rfl⟩
        · exact absurd (hr.lt_length hlive) hge
        · rw [Nat.sub_self]
          rfl
  · -- Two handles for one view type would both be old, or one of them would stand in the way of the
    -- other.
    rintro h₁ h₂ e₁ e₂ (hlive₁ | ⟨rfl, rfl⟩) (hlive₂ | ⟨rfl, rfl⟩) hsame
    · exact hr.unique _ _ _ _ hlive₁ hlive₂ hsame
    · exact absurd hsame (hother _ _ hlive₁)
    · exact absurd hsame.symm (hother _ _ hlive₂)
    · rfl

/-- Disposing of a handle, marked or not, makes it count no more, and no other. The editor is looked
up by its view type, which is safe because only one handle counts for that. -/
theorem Tracks.dispose (hr : Tracks r live) (h : Handle) :
    (r.dispose h).registrations.length = r.registrations.length ∧
      Tracks (r.dispose h) fun h' e => h' ≠ h ∧ live h' e := by
  unfold Registry.dispose
  split
  · rename_i v hunmarked
    obtain ⟨e, hlive, rfl⟩ := (hr.unmarked h v).mp hunmarked
    -- A different handle is the same as a different view type, among those that count.
    have hother : ∀ h' f, live h' f → (h' ≠ h ↔ f.viewType ≠ e.viewType) := by
      refine fun h' f hlive' => not_congr ⟨?_, fun hsame => hr.unique _ _ _ _ hlive' hlive hsame⟩
      rintro rfl
      have hmarks := (hr.unmarked h' _).mpr ⟨f, hlive', rfl⟩
      rw [hunmarked] at hmarks
      exact (congrArg Registration.viewType (Option.some.inj hmarks)).symm
    refine ⟨List.length_set, hr.ordered.filter _, fun f => ?_, fun h' v => ?_, ?_⟩
    · rw [List.mem_filter, hr.mem, bne_iff_ne]
      constructor
      · rintro ⟨⟨h', hlive'⟩, hne⟩
        exact ⟨h', (hother h' f hlive').mpr hne, hlive'⟩
      · rintro ⟨h', hne, hlive'⟩
        exact ⟨⟨h', hlive'⟩, (hother h' f hlive').mp hne⟩
    · rw [List.getElem?_set]
      split
      · rename_i heq
        constructor
        · intro hmark
          split at hmark
          · exact nomatch congrArg Registration.disposed (Option.some.inj hmark)
          · exact nomatch hmark
        · -- The handle itself does not count any more, and its mark says so.
          rintro ⟨f, ⟨hne, -⟩, -⟩
          exact absurd heq.symm hne
      · rename_i hne
        rw [hr.unmarked]
        exact exists_congr fun f => and_congr_left fun _ => (and_iff_right (Ne.symm hne)).symm
    · exact fun h₁ h₂ e₁ e₂ hlive₁ hlive₂ => hr.unique h₁ h₂ e₁ e₂ hlive₁.2 hlive₂.2
  · -- A handle that does not stand for anything any more did not count.
    rename_i hmarked
    refine ⟨rfl, hr.congr fun h' e => (and_iff_right_of_imp ?_).symm⟩
    rintro hlive rfl
    exact hmarked _ ((hr.unmarked h' _).mpr ⟨e, hlive, rfl⟩)

/-- No handle of a dropped registry counts. It still knows how many it gave out, so that the next
registration gets a new one. -/
theorem Tracks.drop (r : Registry) :
    r.drop.registrations.length = r.registrations.length ∧ Tracks r.drop fun _ _ => False := by
  refine ⟨List.length_map _, .nil, fun _ => ⟨nofun, nofun⟩, fun h v => ⟨fun hmark => ?_, nofun⟩,
    nofun⟩
  unfold Registry.drop at hmark
  rw [List.getElem?_map, Option.map_eq_some_iff] at hmark
  obtain ⟨g, -, hmark⟩ := hmark
  exact nomatch congrArg Registration.disposed hmark

/-! ### Answers -/

/-- Whether a registration succeeds: the view type is usable, and no handle counts for it. The
handle is named, since it is the same whichever editor is registered. -/
theorem Tracks.register_eq_ok_iff (hr : Tracks r live) :
    (∃ after, r.register e = .ok (r.registrations.length, after)) ↔
      ¬ Unusable e.viewType ∧ ¬ ∃ h f, live h f ∧ f.viewType = e.viewType := by
  rw [← isInvalid_iff, ← hr.isRegistered_iff]
  unfold Registry.register
  split
  · -- Three branches: the view type is bad, it is taken, or the registration succeeds.
    rename_i hinvalid
    exact ⟨nofun, fun hgood => absurd hinvalid hgood.1⟩
  · rename_i hvalid
    split
    · rename_i htaken
      exact ⟨nofun, fun hgood => absurd htaken hgood.2⟩
    · rename_i hfree
      exact ⟨fun _ => ⟨hvalid, hfree⟩, fun _ => ⟨_, rfl⟩⟩

/-- A view type that no editor can have is refused for that, whether or not it is registered. This
is the first thing that a registration checks. -/
theorem register_eq_invalid_iff :
    r.register e = .error (.invalidViewType e.viewType) ↔ Unusable e.viewType := by
  rw [← isInvalid_iff]
  unfold Registry.register
  split
  · rename_i hinvalid
    exact ⟨fun _ => hinvalid, fun _ => rfl⟩
  · rename_i hvalid
    refine ⟨fun herror => ?_, fun hinvalid => absurd hinvalid hvalid⟩
    split at herror
    · exact nomatch herror
    · exact nomatch herror

/-- A usable view type is refused exactly if a handle counts for it. One that is not usable is
refused for that instead, so it has to be excluded on the right. -/
theorem Tracks.register_eq_duplicate_iff (hr : Tracks r live) :
    r.register e = .error (.duplicateViewType e.viewType) ↔
      ¬ Unusable e.viewType ∧ ∃ h f, live h f ∧ f.viewType = e.viewType := by
  rw [← isInvalid_iff, ← hr.isRegistered_iff]
  unfold Registry.register
  split
  · rename_i hinvalid
    exact ⟨nofun, fun htaken => absurd hinvalid htaken.1⟩
  · rename_i hvalid
    split
    · rename_i htaken
      exact ⟨fun _ => ⟨hvalid, htaken⟩, fun _ => rfl⟩
    · rename_i hfree
      exact ⟨nofun, fun htaken => absurd htaken.2 hfree⟩

/-- A path is opened by the editor for it with the least view type. The order of the registrations
does not matter to that. -/
theorem Tracks.resolve_eq_some_iff (hr : Tracks r live) {p : Path} {v : String} :
    r.resolve p = some v ↔
      (∃ h e, live h e ∧ e.viewType = v ∧ e.IsFor p) ∧
        ∀ h e, live h e → e.IsFor p → v ≤ e.viewType := by
  unfold Registry.resolve
  rw [Option.map_eq_some_iff]
  simp only [hr.ordered.find?_eq_some_iff, hr.mem, claims_iff]
  constructor
  · rintro ⟨e, ⟨⟨h, hlive⟩, hfor, hleast⟩, rfl⟩
    exact ⟨⟨h, e, hlive, rfl, hfor⟩, fun h' f hlive' => hleast f ⟨h', hlive'⟩⟩
  · rintro ⟨⟨h, e, hlive, rfl, hfor⟩, hleast⟩
    exact ⟨e, ⟨⟨h, hlive⟩, hfor, fun f hf => hf.elim fun h' hlive' => hleast h' f hlive'⟩, rfl⟩

/-- Which editor opens a path does not depend on the handles. So two registries with the same
editors answer alike, however they came by them. -/
theorem Tracks.resolve_congr {other : Registry} (hr : Tracks r live) (hother : Tracks other live')
    (hsame : ∀ e, (∃ h, live h e) ↔ ∃ h, live' h e) (p : Path) :
    r.resolve p = other.resolve p := by
  have hmem : ∀ e, e ∈ r.editors ↔ e ∈ other.editors := by
    intro e
    rw [hr.mem, hother.mem, hsame]
  unfold Registry.resolve
  rw [hr.ordered.find?_congr hother.ordered hmem]

/-- Nobody opens a path that no editor is for. -/
theorem Tracks.resolve_eq_none_iff (hr : Tracks r live) {p : Path} :
    r.resolve p = none ↔ ∀ h e, live h e → ¬ e.IsFor p := by
  unfold Registry.resolve
  rw [Option.map_eq_none_iff, List.find?_eq_none]
  simp only [hr.mem, claims_iff]
  exact ⟨fun hnone h e hlive => hnone e ⟨h, hlive⟩,
    fun hnone e he => he.elim fun h hlive => hnone h e hlive⟩

end LanguageClient.Editor
