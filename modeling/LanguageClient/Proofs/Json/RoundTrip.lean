import LanguageClient.Proofs.Json.Token
import Mathlib.Data.List.Forall2
import Mathlib.Data.String.Basic

/-!
# `LanguageClient.Proofs.Json.RoundTrip`: the text of a value is read back

The text of a value has no blanks, so that each reader finds at once what was written for it.
What is read for an object is the object of what is read for its fields (`reads_object`), and
that need not be the one that was written: its fields are sorted then, and of those with one key
the last remains. An object that is sorted is read back as it is (`ofFields_of_sorted`).

`Reads` leaves open what stands behind a value. With it the readers of arrays and objects are
told from the readers of what they hold, by induction on the items or fields.

* `Canonical`: values that are read back as they are.
* `parse_print`: they are, as deep as brackets may nest.
-/

set_option autoImplicit false

namespace LanguageClient.Json

/-! ### Values as texts hold them -/

/-- A value that its text tells exactly: whole numbers of 64 bits, and objects that are sorted
by key and have each key once. -/
inductive Canonical : Json → Prop where
  | null : Canonical .null
  | bool (b : Bool) : Canonical (.bool b)
  | int {i : Int} (low : Number.minInt ≤ i) (high : i ≤ Number.maxInt) : Canonical (.int i)
  | string (s : String) : Canonical (.string s)
  | array {items : List Json} (each : ∀ v ∈ items, Canonical v) : Canonical (.array items)
  | object {fields : List (String × Json)} (sorted : fields.Pairwise fun f g => f.1 < g.1)
      (each : ∀ f ∈ fields, Canonical f.2) : Canonical (.object fields)

mutual

/-- How deep the brackets of a value nest. -/
def depth : Json → Nat
  | .null | .bool _ | .number _ | .string _ => 0
  | .array items => depthItems items + 1
  | .object fields => depthFields fields + 1

/-- How deep the items of an array nest at most. -/
def depthItems : List Json → Nat
  | [] => 0
  | v :: items => max (depth v) (depthItems items)

/-- How deep the fields of an object nest at most. -/
def depthFields : List (String × Json) → Nat
  | [] => 0
  | (_, v) :: fields => max (depth v) (depthFields fields)

end

/-- An item nests no deeper than its array. So what can be read at some depth has items that can be
read at one less. -/
theorem depth_le_items {items : List Json} {v : Json} (h : v ∈ items) :
    v.depth ≤ depthItems items := by
  induction items with
  | nil => simp at h
  | cons w items ih =>
    rw [depthItems]
    rcases List.mem_cons.mp h with rfl | h
    · omega
    · have hrest := ih h
      omega

/-- A field nests no deeper than its object. So what can be read at some depth has fields that can
be read at one less. -/
theorem depth_le_fields {fields : List (String × Json)} {f : String × Json} (h : f ∈ fields) :
    f.2.depth ≤ depthFields fields := by
  induction fields with
  | nil => simp at h
  | cons g fields ih =>
    rw [depthFields]
    rcases List.mem_cons.mp h with rfl | h
    · omega
    · have hrest := ih h
      omega

/-! ### Objects -/

/-- A key is looked up in the first field, or else behind it. -/
theorem lookup_cons (key : String) (v : Json) (fields : List (String × Json)) (other : String) :
    lookup ((key, v) :: fields) other = if key = other then some v else lookup fields other := by
  by_cases h : key = other <;> simp [lookup, h]

/-- The field that is put in is found, and each other one is found as before. So the order in which
the fields are sorted in does not matter to a lookup. -/
theorem lookup_insertField (key : String) (v : Json) (fields : List (String × Json))
    (other : String) :
    lookup (insertField key v fields) other =
      if key = other then some v else lookup fields other := by
  induction fields with
  | nil => exact lookup_cons key v [] other
  | cons f fields ih =>
    obtain ⟨k, w⟩ := f
    rw [insertField]
    split
    · exact lookup_cons key v _ other
    split
    · rename_i hsame
      subst hsame
      -- The field that was there under the same key is replaced.
      simp only [lookup_cons]
      split <;> rfl
    · rename_i hother
      -- The field goes in further behind, and the one in front keeps its own key.
      simp only [lookup_cons, ih]
      by_cases hk : k = other
      · subst hk
        simp [hother]
      · simp [hk]

/-- Of the fields of a text the last one of a key counts. With distinct keys that is the only
one. -/
theorem lookup_foldl_insertField {fields : List (String × Json)}
    (h : fields.Pairwise fun f g => f.1 ≠ g.1) (sorted : List (String × Json)) (key : String) :
    lookup (fields.foldl (fun sorted f => insertField f.1 f.2 sorted) sorted) key =
      (lookup fields key).or (lookup sorted key) := by
  induction fields generalizing sorted with
  | nil => simp [lookup]
  | cons f fields ih =>
    obtain ⟨k, v⟩ := f
    obtain ⟨hfirst, hrest⟩ := List.pairwise_cons.mp h
    rw [List.foldl_cons, ih hrest, lookup_insertField, lookup_cons]
    by_cases hk : k = key
    · -- No later field has this key.
      subst hk
      have hnone : lookup fields k = none := by
        rw [lookup, Option.map_eq_none_iff, List.find?_eq_none]
        intro g hg
        simpa using (hfirst g hg).symm
      simp [hnone]
    · simp [hk]

/-- The object that is read for fields with distinct keys has all of them, and no other. A message
is told apart by looking its keys up, so this is all that is needed of the order. -/
theorem exists_ofFields {fields : List (String × Json)}
    (h : fields.Pairwise fun f g => f.1 ≠ g.1) :
    ∃ sorted, ofFields fields = .object sorted ∧ ∀ key, lookup sorted key = lookup fields key := by
  refine ⟨_, rfl, fun key => ?_⟩
  rw [lookup_foldl_insertField h]
  simp [lookup]

/-- A field behind all others is put at the end. So fields that come in order of their keys stay as
they were written. -/
theorem insertField_of_last {key : String} {fields : List (String × Json)}
    (h : ∀ f ∈ fields, f.1 < key) (v : Json) :
    insertField key v fields = fields ++ [(key, v)] := by
  induction fields with
  | nil => rfl
  | cons f fields ih =>
    obtain ⟨k, w⟩ := f
    have hless : k < key := h (k, w) (by simp)
    have hrest := ih fun f hf => h f (by simp [hf])
    rw [insertField, if_neg hless.asymm, if_neg hless.ne', hrest, List.cons_append]

/-- Sorted fields are the fields of the object that is read. This is the case in which the value
that is read is the one that was written, and not only equal to it as a map. -/
theorem ofFields_of_sorted {fields : List (String × Json)}
    (h : fields.Pairwise fun f g => f.1 < g.1) : ofFields fields = .object fields := by
  -- The induction is on the fields still to go in, with those that are in already as a parameter.
  have hgo : ∀ before : List (String × Json), (before ++ fields).Pairwise (fun f g => f.1 < g.1) →
      fields.foldl (fun sorted f => insertField f.1 f.2 sorted) before = before ++ fields := by
    clear h
    induction fields with
    | nil => simp
    | cons f fields ih =>
      intro before hsorted
      have hlast : ∀ g ∈ before, g.1 < f.1 := by
        intro g hg
        exact (List.pairwise_append.mp hsorted).2.2 g hg f (by simp)
      rw [List.foldl_cons, insertField_of_last hlast, ih (before ++ [(f.1, f.2)])]
      · simp
      · simpa using hsorted
  have hall := hgo [] (by simpa using h)
  rw [ofFields, hall, List.nil_append]

/-! ### What is read for a text -/

-- The proofs below take apart what is printed.
attribute [local simp] print printItems printFields

/-- The text of `v` is read as `w`, as deep as given, whatever is behind it. It begins like a
value, so that it is not taken for the end of an array. -/
structure Reads (depth : Nat) (v w : Json) : Prop where
  begins : ∃ c text, print v = c :: text ∧ isBlank c = false ∧ c ≠ ']'
  read : ∀ rest, Closes rest → readValue .keep depth (print v ++ rest) = .ok (w, rest)

variable {nesting : Nat} {rest : List Char}

/-- No blank is skipped in front of a value. -/
theorem skipBlanks_cons {c : Char} (h : isBlank c = false) (s : List Char) :
    skipBlanks (c :: s) = c :: s := by
  simp [skipBlanks, h]

/-- The first character of a value tells what it is, and how it is read. The lemmas for the kinds of
values rewrite with this equation and take their own branch of it, so that the reader is opened only
here. -/
theorem readValue_cons {c : Char} (h : isBlank c = false) (s : List Char) :
    readValue .keep nesting (c :: s) =
      if c = 'n' then do return (.null, ← readWord ['u', 'l', 'l'] s)
      else if c = 't' then do return (.bool true, ← readWord ['r', 'u', 'e'] s)
      else if c = 'f' then do return (.bool false, ← readWord ['a', 'l', 's', 'e'] s)
      else if c = '"' then do
        let (text, rest) ← readString .keep s
        pure (.string text, rest)
      else if c = '-' then do
        let (n, rest) ← readNumber .keep true s
        pure (.number n, rest)
      else if c.isDigit then do
        let (n, rest) ← readNumber .keep false (c :: s)
        pure (.number n, rest)
      else
        match nesting with
        | 0 => .error .malformed
        | nesting + 1 =>
          if c = '[' then do
            let (items, rest) ← readItems (readValue .keep nesting) (s.length + 1) true s
            pure (.array items, rest)
          else if c = '\x7b' then do
            let (fields, rest) ←
              readFields .keep (readValue .keep nesting) (s.length + 1) true s
            pure (ofFields fields, rest)
          else .error .malformed := by
  rw [readValue]
  -- No blank is in front of `c`, so the text stays as it is and the branches are those of the
  -- reader.
  generalize htext : skipBlanks (c :: s) = text
  obtain rfl := htext.symm.trans (skipBlanks_cons h s)
  rfl

/-- The word for no value is read back. -/
theorem reads_null : Reads nesting .null .null := by
  refine ⟨⟨'n', _, rfl, by decide, by decide⟩, fun rest _ => ?_⟩
  simp [readValue_cons, isBlank, readWord, bind, Except.bind, pure, Except.pure]

/-- The two words for truth values are read back. They differ in their first letter, which the
reader looks at. -/
theorem reads_bool (b : Bool) : Reads nesting (.bool b) (.bool b) := by
  cases b
  · refine ⟨⟨'f', _, rfl, by decide, by decide⟩, fun rest _ => ?_⟩
    simp [readValue_cons, isBlank, readWord, bind, Except.bind, pure, Except.pure]
  · refine ⟨⟨'t', _, rfl, by decide, by decide⟩, fun rest _ => ?_⟩
    simp [readValue_cons, isBlank, readWord, bind, Except.bind, pure, Except.pure]

/-- A string is told by its quote and read back behind it. -/
theorem reads_string (s : String) : Reads nesting (.string s) (.string s) := by
  refine ⟨⟨'"', _, rfl, by decide, by decide⟩, fun rest _ => ?_⟩
  have hread := readString_escaped s rest
  simp [printString, readValue_cons, isBlank, hread, bind, Except.bind, pure, Except.pure]

/-- A whole number is written with its sign, and read back if 64 bits hold it. A negative number may
go down to `minInt` and a positive one up to `maxInt`: the sign is read first and the digits after
it, so each sign has its own limit. -/
theorem reads_int {i : Int} (hlow : Number.minInt ≤ i) (hhigh : i ≤ Number.maxInt) :
    Reads nesting (.int i) (.int i) := by
  have hmin : Number.minInt = -9223372036854775808 := by decide
  have hmax : Number.maxInt = 18446744073709551615 := by decide
  have hword : Text.maxWord64 = 18446744073709551615 := by decide
  have hfits : i.natAbs ≤ Text.maxWord64 := by omega
  by_cases hsign : i < 0
  · have hprint : print (.int i) = '-' :: Text.decimal i.natAbs := by
      simp [int, Number.print, hsign]
    have hvalue : Number.ofDigits true i.natAbs = .int i := by
      have hback : -(i.natAbs : Int) = i := by omega
      have hnonzero : i.natAbs ≠ 0 := by omega
      rw [Number.ofDigits, hback, if_pos rfl, if_pos ⟨hnonzero, hlow⟩]
    -- The minus sign tells a negative number.
    refine ⟨⟨'-', _, hprint, by decide, by decide⟩, fun rest hrest => ?_⟩
    have hread := readNumber_decimal hrest hfits true
    rw [hprint]
    simp [readValue_cons, isBlank, hread, hvalue, int, bind, Except.bind, pure, Except.pure]
  · have hprint : print (.int i) = Text.decimal i.natAbs := by
      simp [int, Number.print, hsign]
    have hvalue : Number.ofDigits false i.natAbs = .int i := by
      have hback : (i.natAbs : Int) = i := by omega
      simp [Number.ofDigits, hback]
    cases hdigits : Text.decimal i.natAbs with
    | nil => exact absurd hdigits (Text.decimal_ne_nil _)
    | cons d ds =>
      have hmem : d ∈ Text.decimal i.natAbs := by simp [hdigits]
      have hdigit : d.isDigit = true := Text.isDigit_of_mem_decimal hmem
      -- A digit is none of the characters that other values begin with.
      have hother : ∀ c : Char, c.isDigit = false → d ≠ c := by
        rintro c hc rfl
        exact Bool.false_ne_true (hc.symm.trans hdigit)
      have hblank : isBlank d = false := by
        simp [isBlank, hother]
      -- The first digit tells another one, and it is read again as a part of the number.
      refine ⟨⟨d, ds, hprint.trans hdigits, hblank, hother _ (by decide)⟩, fun rest hrest => ?_⟩
      have hread := readNumber_decimal hrest hfits false
      rw [hdigits, List.cons_append] at hread
      rw [hprint, hdigits, List.cons_append]
      simp [readValue_cons, hblank, hother, hdigit, hread, hvalue, int, bind, Except.bind, pure,
        Except.pure]

/-! ### Arrays -/

/-- A bracket is read as an array, one level further down. The items are read with as much fuel as
there is text. -/
theorem readValue_bracket (nesting : Nat) (s : List Char) :
    readValue .keep (nesting + 1) ('[' :: s) =
      (readItems (readValue .keep nesting) (s.length + 1) true s).map fun read =>
        (.array read.1, read.2) := by
  rw [readValue_cons (by decide)]
  cases hread : readItems (readValue .keep nesting) (s.length + 1) true s with
  | error e => simp [hread, bind, Except.bind, Except.map]
  | ok read => simp [hread, bind, Except.bind, pure, Except.pure, Except.map]

/-- What is printed behind an item closes it: a comma or the bracket. -/
theorem closes_printItems (items : List Json) (rest : List Char) :
    Closes (printItems items ++ rest) := by
  cases items with
  | nil => exact closes_cons (by simp) _
  | cons v items => exact closes_cons (by simp) _

/-- Items are fewer than the characters of their text. So the fuel by the length of the text is
enough to read them. -/
theorem length_lt_printItems (items : List Json) : items.length < (printItems items).length := by
  induction items with
  | nil => simp
  | cons v items ih =>
    simp only [printItems, List.length_cons, List.length_append]
    omega

/-- The items of an array after the first one are read one by one. It leaves open what is read for
each item, since the items may themselves be objects that come back sorted. -/
theorem readItems_printItems (rest : List Char) {items values : List Json}
    (h : List.Forall₂ (Reads nesting) items values) {fuel : Nat} (hfuel : items.length < fuel) :
    readItems (readValue .keep nesting) fuel false (printItems items ++ rest) =
      .ok (values, rest) := by
  induction h generalizing fuel with
  | nil =>
    -- Only the closing bracket is left.
    obtain ⟨fuel, rfl⟩ : ∃ more, fuel = more + 1 := ⟨fuel - 1, by omega⟩
    simp [readItems, skipBlanks, isBlank]
  | @cons v w items values hone hmore ih =>
    obtain ⟨fuel, rfl⟩ : ∃ more, fuel = more + 1 := ⟨fuel - 1, by omega⟩
    have hread := hone.read _ (closes_printItems items rest)
    have hless : items.length < fuel := by simpa using hfuel
    have hrest := ih hless
    simp [readItems, skipBlanks, isBlank, hread, hrest, bind, Except.bind, pure, Except.pure]

/-- The array of items is read as the array of what is read for them. The first item has no comma in
front, and it begins like a value, so that it is not mistaken for the end. -/
theorem reads_array {items values : List Json} (h : List.Forall₂ (Reads nesting) items values) :
    Reads (nesting + 1) (.array items) (.array values) := by
  cases h with
  | nil =>
    refine ⟨⟨'[', _, rfl, by decide, by decide⟩, fun rest _ => ?_⟩
    simp [readValue_bracket, readItems, skipBlanks, isBlank, Except.map]
  | @cons v w items values hone hmore =>
    refine ⟨⟨'[', _, rfl, by decide, by decide⟩, fun rest _ => ?_⟩
    obtain ⟨c, text, hprint, hblank, hbracket⟩ := hone.begins
    -- The first item is read before the loop over the others, which begin with a comma.
    have hread := hone.read _ (closes_printItems items rest)
    have hfuel : items.length < (text ++ (printItems items ++ rest)).length + 1 := by
      have hlength := length_lt_printItems items
      simp only [List.length_append]
      omega
    have hrest := readItems_printItems rest hmore hfuel
    rw [hprint, List.cons_append] at hread
    simp only [List.length_append] at hrest
    simp [hprint, readValue_bracket, readItems, skipBlanks_cons hblank, hbracket, hread, hrest,
      bind, Except.bind, pure, Except.pure, Except.map]

/-! ### Objects -/

/-- What is read for a field: its key, and what is read for its value. -/
def ReadsField (nesting : Nat) (f g : String × Json) : Prop :=
  f.1 = g.1 ∧ Reads nesting f.2 g.2

/-- What is printed behind the value of a field closes it: a comma or the brace. -/
theorem closes_printFields (fields : List (String × Json)) (rest : List Char) :
    Closes (printFields fields ++ rest) := by
  cases fields with
  | nil => exact closes_cons (by simp) _
  | cons f fields => exact closes_cons (by simp) _

/-- Fields are fewer than the characters of their text, so that the fuel of the reader is enough for
them. -/
theorem length_lt_printFields (fields : List (String × Json)) :
    fields.length < (printFields fields).length := by
  induction fields with
  | nil => simp
  | cons f fields ih =>
    simp only [printFields, List.length_cons, List.length_append]
    omega

/-- A key is read back with the colon behind it. -/
theorem readKey_printString (key : String) (rest : List Char) :
    readKey .keep (printString key ++ ':' :: rest) = .ok (key, rest) := by
  have hread := readString_escaped key (':' :: rest)
  simp [printString, readKey, skipBlanks, isBlank, hread, bind, Except.bind, pure, Except.pure]

/-- A brace is read as an object, one level further down. The fields that were read are then sorted
in. -/
theorem readValue_brace (nesting : Nat) (s : List Char) :
    readValue .keep (nesting + 1) ('\x7b' :: s) =
      (readFields .keep (readValue .keep nesting) (s.length + 1) true s).map fun read =>
        (ofFields read.1, read.2) := by
  rw [readValue_cons (by decide)]
  cases hread : readFields .keep (readValue .keep nesting) (s.length + 1) true s with
  | error e => simp [hread, bind, Except.bind, Except.map]
  | ok read => simp [hread, bind, Except.bind, pure, Except.pure, Except.map]

/-- The fields of an object after the first one are read one by one. By induction on the fields;
each takes one unit of the fuel and leaves the text of the others. -/
theorem readFields_printFields (rest : List Char) {fields values : List (String × Json)}
    (h : List.Forall₂ (ReadsField nesting) fields values) {fuel : Nat}
    (hfuel : fields.length < fuel) :
    readFields .keep (readValue .keep nesting) fuel false (printFields fields ++ rest) =
      .ok (values, rest) := by
  induction h generalizing fuel with
  | nil =>
    obtain ⟨fuel, rfl⟩ : ∃ more, fuel = more + 1 := ⟨fuel - 1, by omega⟩
    -- After the last field comes the brace, and one unit of fuel is left for it.
    simp [readFields, skipBlanks, isBlank]
  | @cons f g fields values hone hmore ih =>
    obtain ⟨fuel, rfl⟩ : ∃ more, fuel = more + 1 := ⟨fuel - 1, by omega⟩
    obtain ⟨key, v⟩ := f
    obtain ⟨_, w⟩ := g
    obtain ⟨rfl, hvalue⟩ := hone
    have hkey := readKey_printString key (print v ++ (printFields fields ++ rest))
    have hread := hvalue.read _ (closes_printFields fields rest)
    have hless : fields.length < fuel := by simpa using hfuel
    have hrest := ih hless
    simp [readFields, skipBlanks, isBlank, hkey, hread, hrest, bind, Except.bind, pure, Except.pure]

/-- The object of fields is read as the object of what is read for them. That one is sorted by key,
so for an object in another order it is not the one that was printed. -/
theorem reads_object {fields values : List (String × Json)}
    (h : List.Forall₂ (ReadsField nesting) fields values) :
    Reads (nesting + 1) (.object fields) (ofFields values) := by
  cases h with
  | nil =>
    refine ⟨⟨'\x7b', _, rfl, by decide, by decide⟩, fun rest _ => ?_⟩
    simp [readValue_brace, readFields, skipBlanks, isBlank, Except.map]
  | @cons f g fields values hone hmore =>
    obtain ⟨key, v⟩ := f
    obtain ⟨_, w⟩ := g
    obtain ⟨rfl, hvalue⟩ := hone
    refine ⟨⟨'\x7b', _, rfl, by decide, by decide⟩, fun rest _ => ?_⟩
    have hkey := readKey_printString key (print v ++ (printFields fields ++ rest))
    have hread := hvalue.read _ (closes_printFields fields rest)
    have hfuel : fields.length <
        (printString key ++ ':' :: (print v ++ (printFields fields ++ rest))).length := by
      have hlength := length_lt_printFields fields
      simp only [List.length_append, List.length_cons]
      omega
    have hrest := readFields_printFields rest hmore hfuel
    -- A key begins with its quote, so it is neither a blank nor the closing brace.
    have hquote : ∃ text, printString key = '"' :: text := ⟨_, rfl⟩
    obtain ⟨text, htext⟩ := hquote
    rw [htext, List.cons_append] at hkey hrest
    simp only [List.length_append, List.length_cons] at hrest
    simp [htext, readValue_brace, readFields, skipBlanks, isBlank, hkey, hread, hrest, bind,
      Except.bind, pure, Except.pure, Except.map]

/-! ### Canonical values -/

/-- A canonical value is read back as it is, as deep as brackets may nest. The induction gives each
item and each field back unchanged, and the sorted fields keep their order. -/
theorem Canonical.reads {v : Json} (h : v.Canonical) (hdepth : v.depth ≤ nesting) :
    Reads nesting v v := by
  induction h generalizing nesting with
  | null => exact reads_null
  | bool b => exact reads_bool b
  | int low high => exact reads_int low high
  | string s => exact reads_string s
  | @array items each ih =>
    rw [depth] at hdepth
    obtain ⟨nesting, rfl⟩ : ∃ inner, nesting = inner + 1 := ⟨nesting - 1, by omega⟩
    -- Inside the brackets there is one level less, for the items as for the reader.
    refine reads_array (List.forall₂_same.mpr fun v hv => ih v hv ?_)
    have hitem := depth_le_items hv
    omega
  | @object fields sorted each ih =>
    rw [depth] at hdepth
    obtain ⟨nesting, rfl⟩ : ∃ inner, nesting = inner + 1 := ⟨nesting - 1, by omega⟩
    -- The fields are read back as they were written, and sorting leaves them so.
    have hreads : Reads (nesting + 1) (.object fields) (ofFields fields) := by
      refine reads_object (List.forall₂_same.mpr fun f hf => ⟨rfl, ih f hf ?_⟩)
      have hfield := depth_le_fields hf
      omega
    rwa [ofFields_of_sorted sorted] at hreads

/-- A text is read as a whole if its value is read with nothing behind it. -/
theorem Reads.parse {v w : Json} (h : Reads maxDepth v w) : Json.parse v.print = .ok w := by
  have hread := h.read [] closes_nil
  rw [List.append_nil] at hread
  simp [Json.parse, hread, finish, skipBlanks, bind, Except.bind]

/-- The text of a canonical value is read as that value. -/
theorem parse_print {v : Json} (h : v.Canonical) (hdepth : v.depth ≤ maxDepth) :
    Json.parse v.print = .ok v := (h.reads hdepth).parse

end LanguageClient.Json
