import LanguageClient.Text.Split

/-!
# `LanguageClient.Proofs.Text.Split`: the parts between separators

The first separator is found in front of what follows it, and behind what has none
(`splitFirst?_append`, `splitFirst?_behind`); the last one is the one that none follows
(`splitLast?_append`). Of all parts there is always a first one, and each element goes in front of
it, unless it is a separator (`splitOn_cons`).
-/

set_option autoImplicit false

namespace LanguageClient.Text

variable {α : Type} [DecidableEq α] {sep : α}

/-! ### The first separator -/

/-- The first separator of a text with one more element in front: that element, or the first one of
the rest. The proofs below cite this and do not unfold the search. -/
theorem splitFirst?_cons (x : α) (xs : List α) :
    splitFirst? sep (x :: xs) =
      if x = sep then some ([], xs)
      else (splitFirst? sep xs).map fun (before, after) => (x :: before, after) := rfl

/-- A separator that is found is found whatever is put behind the text. Most often used for input
that is still arriving: what has been found in a part of it stays. -/
theorem splitFirst?_append {a before after : List α}
    (h : splitFirst? sep a = some (before, after)) (b : List α) :
    splitFirst? sep (a ++ b) = some (before, after ++ b) := by
  induction a generalizing before with
  | nil => exact nomatch h
  | cons c a ih =>
    rw [splitFirst?_cons] at h
    rw [List.cons_append, splitFirst?_cons]
    split
    · rename_i hc
      rw [if_pos hc] at h
      cases h
      rfl
    · rename_i hc
      rw [if_neg hc] at h
      -- The separator is further behind, where the hypothesis finds it.
      obtain ⟨⟨before, after⟩, hfound, hcons⟩ := Option.map_eq_some_iff.mp h
      cases hcons
      rw [ih hfound]
      rfl

/-- If there is no separator in front, the search goes on behind, and what it finds has all of the
front part before it. -/
theorem splitFirst?_behind {a : List α} (h : splitFirst? sep a = none) (b : List α) :
    splitFirst? sep (a ++ b) =
      (splitFirst? sep b).map fun found => (a ++ found.1, found.2) := by
  induction a with
  | nil => cases hb : splitFirst? sep b <;> simp [hb]
  | cons c a ih =>
    rw [splitFirst?_cons] at h
    split at h
    · exact nomatch h
    · rename_i hc
      rw [List.cons_append, splitFirst?_cons, if_neg hc, ih (Option.map_eq_none_iff.mp h),
        Option.map_map]
      rfl

/-- Without a separator nothing is found. -/
theorem splitFirst?_of_notMem {a : List α} (h : sep ∉ a) : splitFirst? sep a = none := by
  induction a with
  | nil => rfl
  | cons c a ih =>
    have hc : c ≠ sep := fun hc => h (hc ▸ List.mem_cons_self)
    rw [splitFirst?_cons, if_neg hc, ih fun hmem => h (List.mem_cons_of_mem c hmem)]
    rfl

/-- The first separator is the one that none stands in front of. This says all there is to say about
the search. -/
theorem splitFirst?_eq_some_iff {a before after : List α} :
    splitFirst? sep a = some (before, after) ↔ a = before ++ sep :: after ∧ sep ∉ before := by
  constructor
  · intro h
    induction a generalizing before with
    | nil => exact nomatch h
    | cons c a ih =>
      -- The first element is the separator, or the separator is that of the rest.
      rw [splitFirst?_cons] at h
      split at h
      · rename_i hc
        cases h
        exact ⟨by rw [hc, List.nil_append], List.not_mem_nil⟩
      · rename_i hc
        obtain ⟨⟨front, rest⟩, hfound, hcons⟩ := Option.map_eq_some_iff.mp h
        cases hcons
        obtain ⟨rfl, hfront⟩ := ih hfound
        exact ⟨rfl, by simp [hfront, Ne.symm hc]⟩
  · rintro ⟨rfl, hnone⟩
    rw [splitFirst?_behind (splitFirst?_of_notMem hnone), splitFirst?_cons, if_pos rfl]
    simp

/-- The last separator is the one that none follows. The search is the one for the first separator
of the reversed text. -/
theorem splitLast?_append {before after : List α} (h : sep ∉ after) :
    splitLast? sep (before ++ sep :: after) = some (before, after) := by
  have hnone : splitFirst? sep after.reverse = none :=
    splitFirst?_of_notMem fun hmem => h (List.mem_reverse.mp hmem)
  rw [splitLast?, List.reverse_append, List.reverse_cons, List.append_assoc,
    splitFirst?_behind hnone, List.singleton_append, splitFirst?_cons, if_pos rfl]
  simp

/-! ### All parts -/

/-- There is always a part, if only an empty one. So each element has a first part to go in front
of. -/
theorem splitOn_ne_nil (sep : α) (xs : List α) : splitOn sep xs ≠ [] := by
  cases xs with
  | nil => simp [splitOn]
  | cons x xs =>
    rw [splitOn]
    split
    · simp
    · split <;> simp

/-- One more element in front: a separator begins a new, empty part, and any other element goes in
front of the first part. Every induction over the parts uses this equation. -/
theorem splitOn_cons (x : α) (xs : List α) :
    splitOn sep (x :: xs) =
      if x = sep then [] :: splitOn sep xs else (splitOn sep xs).modifyHead (x :: ·) := by
  obtain ⟨part, parts, hparts⟩ := List.exists_cons_of_ne_nil (splitOn_ne_nil sep xs)
  rw [splitOn, hparts]
  rfl

/-- A test that fails on the separator finds the same whether one looks through the text or through
its parts. -/
theorem any_splitOn {p : α → Bool} (hsep : p sep = false) (xs : List α) :
    ((splitOn sep xs).any fun part => part.any p) = xs.any p := by
  induction xs with
  | nil => simp [splitOn]
  | cons x xs ih =>
    obtain ⟨part, parts, hparts⟩ := List.exists_cons_of_ne_nil (splitOn_ne_nil sep xs)
    rw [splitOn_cons, List.any_cons, ← ih, hparts]
    split
    · rename_i hx
      simp [hx, hsep]
    · simp [Bool.or_assoc]

end LanguageClient.Text
