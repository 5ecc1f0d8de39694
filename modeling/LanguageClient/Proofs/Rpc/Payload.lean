import LanguageClient.Proofs.Json.RoundTrip
import LanguageClient.Proofs.Rpc.Grammar

/-!
# `LanguageClient.Proofs.Rpc.Payload`: the payload of a message is that message

A message is written with its fields in their order and read back from them sorted by key, so
that both sides meet at what the fields tell (`Tells`): sorting changes no field. A field that
may be left out is left out for the reader also when its value is `null`. What comes back is the
message without such fields (`Message.terse`), and that comes back as it is.

* `Message.Proper`: messages that a payload can hold.
* `Message.parse_of_reads`: what is read for a payload, by what is read for each field.
* `Message.parse_payload`: a proper message comes back, without its `null` fields.
-/

set_option autoImplicit false

namespace LanguageClient.Rpc

open Json (ReadsField Reads depthFields lookup presence)

variable {nesting : Nat}

/-! ### What comes back -/

/-- The error object without data that are `null`. -/
def ErrorObject.terse (e : ErrorObject) : ErrorObject := { e with data := presence e.data }

/-- The message without its fields that may be left out and are `null`. -/
def Message.terse : Message → Message
  | .request r => .request { r with params := presence r.params }
  | .notification n => .notification { n with params := presence n.params }
  | .response r =>
    .response { r with result := presence r.result, error := r.error.map ErrorObject.terse }

/-- The values that a message carries for others. -/
def Message.values : Message → List Json
  | .request r => r.id :: r.params.toList
  | .notification n => n.params.toList
  | .response r => r.id :: (r.result.toList ++ (r.error.bind ErrorObject.data).toList)

/-- A message that its payload tells: a request has an id, the values are those of texts, and
brackets nest no deeper than is read. -/
structure Message.Proper (m : Message) : Prop where
  id : ∀ r, m = .request r → r.id ≠ .null
  canonical : ∀ v ∈ m.values, v.Canonical
  depth : m.toJson.depth ≤ Json.maxDepth

/-! ### Fields that may be left out -/

/-- A name is looked up in the first fields and, if it is not there, in the others. Messages are
built of fields that are always there and of some that may be left out. -/
theorem lookup_append (fields more : List (String × Json)) (key : String) :
    lookup (fields ++ more) key = (lookup fields key).or (lookup more key) := by
  rw [lookup, List.find?_append]
  cases hfind : fields.find? fun f => f.1 == key <;> simp [lookup, hfind]

/-- A field that may be left out is found under its name if it has a value, and nothing else is. -/
theorem lookup_optionalField (name : String) (v : Option Json) (key : String) :
    lookup (optionalField name v) key = if name = key then v else none := by
  cases v with
  | none => simp [optionalField, lookup]
  | some v =>
    rw [optionalField, Json.lookup_cons]
    rfl

/-- Fields nest as deep as the deeper part of them. -/
theorem depthFields_append (fields more : List (String × Json)) :
    depthFields (fields ++ more) = max (depthFields fields) (depthFields more) := by
  induction fields with
  | nil => simp [depthFields]
  | cons f fields ih => simp [depthFields, ih, Nat.max_assoc]

/-- A value that is present is the value that was there: `presence` only drops `null`. -/
theorem mem_of_mem_presence {v : Option Json} {w : Json} (h : w ∈ (presence v).toList) :
    w ∈ v.toList := by
  have hpresent := presence_eq_some_iff.mp (Option.mem_toList.mp h)
  simp [hpresent.1]

/-- Leaving a `null` out does not nest deeper. So a message that could be read can be read in its
shorter form. -/
theorem depthFields_presence_le (name : String) (v : Option Json) :
    depthFields (optionalField name (presence v)) ≤ depthFields (optionalField name v) := by
  cases hpresent : presence v with
  | none => simp [optionalField, depthFields]
  | some w =>
    obtain ⟨rfl, -⟩ := presence_eq_some_iff.mp hpresent
    exact Nat.le_refl _

/-- What is left out once is left out for good. -/
theorem presence_presence (v : Option Json) : presence (presence v) = presence v := by
  cases hpresent : presence v with
  | none => rfl
  | some w => exact presence_eq_some_iff.mpr ⟨rfl, (presence_eq_some_iff.mp hpresent).2⟩

/-- The value of a field that may be left out is canonical if it is there. -/
theorem canonical_optionalField {name : String} {v : Option Json}
    (h : ∀ w ∈ v.toList, w.Canonical) : ∀ f ∈ optionalField name v, f.2.Canonical := by
  cases v with
  | none => simp [optionalField]
  | some w => simpa [optionalField] using h

/-- Fields with canonical values are read as they are. -/
theorem forall₂_readsField {fields : List (String × Json)} (h : ∀ f ∈ fields, f.2.Canonical)
    (hdepth : depthFields fields ≤ nesting) :
    List.Forall₂ (ReadsField nesting) fields fields := by
  refine List.forall₂_same.mpr fun f hf => ⟨rfl, (h f hf).reads ?_⟩
  exact (Json.depth_le_fields hf).trans hdepth

/-! ### Error objects -/

namespace ErrorObject

/-- An error object without `null` data nests no deeper. -/
theorem depth_terse_le (e : ErrorObject) : e.terse.toJson.depth ≤ e.toJson.depth := by
  have hdata := depthFields_presence_le "data" e.data
  simp only [toJson, terse, Json.depth, depthFields_append]
  omega

/-- A code is a number of 32 bits, which is well within what a text can hold. So it needs no
condition in the round trip of an error. -/
theorem canonical_code (code : Int32) : (Json.int code.toInt).Canonical := by
  have hlow := code.minValue_le_toInt
  have hhigh := code.toInt_le
  rw [Int32.toInt_minValue] at hlow
  rw [Int32.toInt_maxValue] at hhigh
  refine .int ?_ ?_
  · have hmin : Number.minInt = -9223372036854775808 := by decide
    omega
  · have hmax : Number.maxInt = 18446744073709551615 := by decide
    omega

/-- What is read for an error object tells it, without data that are `null`. The reader sorts the
fields, so this is said of some fields with the same lookups and not of those that were written. -/
theorem exists_reads {e : ErrorObject} (hdata : ∀ v ∈ e.data.toList, v.Canonical)
    (hdepth : e.toJson.depth ≤ nesting) :
    ∃ fields, Reads nesting e.toJson (.object fields) ∧ TellsError fields e.terse := by
  rw [toJson, Json.depth] at hdepth
  -- The object takes one level, so the fields are read with one less.
  obtain ⟨inner, rfl⟩ : ∃ inner, nesting = inner + 1 := ⟨nesting - 1, by omega⟩
  have hcanonical : ∀ f ∈ [("code", Json.int e.code.toInt), ("message", .string e.text)] ++
      optionalField "data" e.data, f.2.Canonical := by
    intro f hf
    rcases List.mem_append.mp hf with hf | hf
    · simp only [List.mem_cons, List.not_mem_nil, or_false] at hf
      rcases hf with rfl | rfl
      · exact canonical_code e.code
      · exact .string e.text
    · exact canonical_optionalField hdata f hf
  have hkeys : ([("code", Json.int e.code.toInt), ("message", .string e.text)] ++
      optionalField "data" e.data).Pairwise fun f g => f.1 ≠ g.1 := by
    cases e.data <;> simp [optionalField]
  -- No two fields have one key, and so sorting them changes no lookup.
  obtain ⟨sorted, hsorted, hlookup⟩ := Json.exists_ofFields hkeys
  have hreads := Json.reads_object (forall₂_readsField hcanonical (Nat.le_of_succ_le_succ hdepth))
  rw [hsorted] at hreads
  refine ⟨sorted, hreads, ?_, ?_, ?_⟩ <;>
    simp [hlookup, Json.lookup_cons, lookup_optionalField, terse]

end ErrorObject

/-! ### Messages -/

namespace Message

/-- A proper message stays proper without its `null` fields: its id and values are among those
before, and it nests no deeper. This is what lets `Proper.parse` be applied to what it returned. -/
theorem Proper.terse {m : Message} (h : m.Proper) : m.terse.Proper where
  -- Only parameters are left out of a request, never its id.
  id := by
    rintro r heq
    cases m with
    | request r' =>
      cases heq
      exact h.id r' rfl
    | _ => exact nomatch heq
  canonical := by
    intro v hv
    refine h.canonical v ?_
    cases m with
    | request r =>
      simp only [Message.terse, values, List.mem_cons] at hv ⊢
      exact hv.imp_right mem_of_mem_presence
    | notification n => exact mem_of_mem_presence hv
    | response r =>
      -- The values are the id, the result and the data of the error, and only the last two shrink.
      simp only [Message.terse, values, List.mem_cons, List.mem_append] at hv ⊢
      refine hv.imp_right (Or.imp mem_of_mem_presence fun hdata => ?_)
      cases herror : r.error with
      | none => simp [herror] at hdata
      | some e =>
        rw [herror] at hdata
        exact mem_of_mem_presence hdata
  depth := by
    refine Nat.le_trans ?_ h.depth
    cases m with
    | request r =>
      have hparams := depthFields_presence_le "params" r.params
      simp only [Message.terse, toJson, Request.toJson, Json.depth, depthFields_append]
      omega
    | notification n =>
      have hparams := depthFields_presence_le "params" n.params
      simp only [Message.terse, toJson, Notification.toJson, Json.depth, depthFields_append]
      omega
    | response r =>
      have hresult := depthFields_presence_le "result" r.result
      -- The error is nested in the response, so its own depth is compared first.
      have herror : depthFields (optionalField "error"
          ((r.error.map ErrorObject.terse).map ErrorObject.toJson)) ≤
          depthFields (optionalField "error" (r.error.map ErrorObject.toJson)) := by
        cases r.error with
        | none => simp
        | some e =>
          have hdepth := e.depth_terse_le
          simp only [Option.map_some, optionalField, depthFields]
          omega
      simp only [Message.terse, toJson, Response.toJson, Json.depth, depthFields_append]
      omega

/-- Leaving `null` fields out twice is leaving them out once. -/
theorem terse_terse (m : Message) : m.terse.terse = m.terse := by
  cases m with
  | request r => simp [terse, presence_presence]
  | notification n => simp [terse, presence_presence]
  | response r =>
    cases herror : r.error <;> simp [terse, presence_presence, herror, ErrorObject.terse]

/-- A payload is read as the message that its fields tell, in whatever order they are read. It is
enough to say what is read for each field, that names are different, and that fields with these
lookups tell the message. -/
theorem parse_of_reads {fields values : List (String × Json)} {m : Message}
    (hreads : List.Forall₂ (ReadsField 126) fields values)
    (hkeys : values.Pairwise fun f g => f.1 ≠ g.1)
    (htells : ∀ sorted, (∀ key, lookup sorted key = lookup values key) → Tells sorted m) :
    parse (Json.object fields).print = .ok m := by
  have hparse : Json.parse (Json.object fields).print = .ok (Json.ofFields values) :=
    (Json.reads_object hreads).parse
  -- No key stands twice, so that sorting them keeps the value of each.
  obtain ⟨sorted, hsorted, hlookup⟩ := Json.exists_ofFields hkeys
  rw [hsorted] at hparse
  exact parse_eq_ok_iff.mpr (.inl ⟨sorted, hparse, htells sorted hlookup⟩)

/-- The payload of a request is read as that request. Each field is read as it is written, the id
among them since it is not `null`. -/
theorem Proper.parse_request {r : Request} (h : (Message.request r).Proper) :
    parse (Message.request r).payload = .ok (Message.request r).terse := by
  have hdepth := h.depth
  rw [toJson, Request.toJson, Json.depth] at hdepth
  refine parse_of_reads (forall₂_readsField ?_ (Nat.le_of_succ_le_succ hdepth)) ?_ ?_
  · -- Each value that is written has to be one that is read back.
    intro f hf
    simp only [List.mem_append, List.mem_cons, List.not_mem_nil, or_false] at hf
    rcases hf with (rfl | rfl | rfl) | hf
    · exact .string _
    · exact h.canonical _ (by simp [values])
    · exact .string _
    · exact canonical_optionalField (fun w hw => h.canonical w (by simp [values, hw])) f hf
  · -- The keys are different, with or without parameters.
    cases r.params <;> simp [optionalField]
  · intro sorted hlookup
    refine .request ⟨?_, ?_, ?_⟩ ?_ (h.id r rfl) <;>
      simp [hlookup, Json.lookup_cons, lookup_optionalField]

/-- The payload of a notification is read as that notification: it has no `id` at all, and this
tells it from a request. -/
theorem Proper.parse_notification {n : Notification} (h : (Message.notification n).Proper) :
    parse (Message.notification n).payload = .ok (Message.notification n).terse := by
  have hdepth := h.depth
  rw [toJson, Notification.toJson, Json.depth] at hdepth
  refine parse_of_reads (forall₂_readsField ?_ (Nat.le_of_succ_le_succ hdepth)) ?_ ?_
  · -- Each value that is written has to be one that is read back.
    intro f hf
    simp only [List.mem_append, List.mem_cons, List.not_mem_nil, or_false] at hf
    rcases hf with (rfl | rfl) | hf
    · exact .string _
    · exact .string _
    · exact canonical_optionalField (fun w hw => h.canonical w (by simp [values, hw])) f hf
  · -- The keys are different, with or without parameters.
    cases n.params <;> simp [optionalField]
  · intro sorted hlookup
    refine .notification ⟨?_, ?_, ?_⟩ (.inl ?_) <;>
      simp [hlookup, Json.lookup_cons, lookup_optionalField]

/-- The error of a response is read as the object that tells it, or is not there on either side. It
is one level deeper than the response, which `hdepth` accounts for. -/
theorem exists_reads_error {error : Option ErrorObject}
    (hdata : ∀ v ∈ (error.bind ErrorObject.data).toList, v.Canonical)
    (hdepth : depthFields (optionalField "error" (error.map ErrorObject.toJson)) ≤ nesting) :
    ∃ v, List.Forall₂ (ReadsField nesting)
        (optionalField "error" (error.map ErrorObject.toJson)) (optionalField "error" v) ∧
      ErrorField v (error.map ErrorObject.terse) := by
  cases error with
  | none => exact ⟨none, .nil, .absent⟩
  | some e =>
    simp only [Option.map_some, optionalField, depthFields] at hdepth
    have hfits : e.toJson.depth ≤ nesting := by omega
    obtain ⟨fields, hreads, htells⟩ := e.exists_reads hdata hfits
    exact ⟨some (.object fields), .cons ⟨rfl, hreads⟩ .nil, .object htells⟩

/-- The payload of a response is read as that response. The id may be `null` here, since the kind is
told by the missing `method`. -/
theorem Proper.parse_response {r : Response} (h : (Message.response r).Proper) :
    parse (Message.response r).payload = .ok (Message.response r).terse := by
  have hdepth := h.depth
  rw [toJson, Response.toJson, Json.depth] at hdepth
  have hinner := Nat.le_of_succ_le_succ hdepth
  rw [depthFields_append, Nat.max_le] at hinner
  -- Only the error is not read as it was: its own fields come sorted.
  obtain ⟨error, herror, hfield⟩ := exists_reads_error
    (fun v hv => h.canonical v (by simp [values, hv])) hinner.2
  refine parse_of_reads (List.rel_append (forall₂_readsField ?_ hinner.1) herror) ?_ ?_
  · intro f hf
    simp only [List.mem_append, List.mem_cons, List.not_mem_nil, or_false] at hf
    rcases hf with (rfl | rfl) | hf
    · exact .string _
    · exact h.canonical _ (by simp [values])
    · exact canonical_optionalField (fun w hw => h.canonical w (by simp [values, hw])) f hf
  · cases r.result <;> cases error <;> simp [optionalField]
  · intro sorted hlookup
    have hkey : lookup sorted "error" = error := by
      simp [hlookup, lookup_append, Json.lookup_cons, lookup_optionalField]
    refine .response ⟨?_, ?_, ?_, ?_⟩ (hkey ▸ hfield) <;>
      simp [hlookup, lookup_append, Json.lookup_cons, lookup_optionalField]

/-- The payload of a proper message is read as that message without its `null` fields. -/
theorem Proper.parse {m : Message} (h : m.Proper) : Message.parse m.payload = .ok m.terse := by
  cases m with
  | request r => exact h.parse_request
  | notification n => exact h.parse_notification
  | response r => exact h.parse_response

/-- The payload of a proper message is read as a message of its kind with its fields, of which
those that may be left out and are `null` come back as absent. What was read has a payload of
its own, and that is read as the same message once more. -/
theorem parse_payload {m : Message} (h : m.Proper) :
    Message.parse m.payload = .ok m.terse ∧ Message.parse m.terse.payload = .ok m.terse := by
  have hagain := h.terse.parse
  rw [terse_terse] at hagain
  exact ⟨h.parse, hagain⟩

/-- A response with a `null` id, a result with a control character and the least whole number,
and an error with `null` data: only the data are gone when it is read, and nothing more when it
is read again. -/
theorem parse_payload_null_data :
    let result := Json.object [("a", .array [.string "\"\x01\\", .int (-9223372036854775808)])]
    let sent := Message.response
      { id := .null, result := some result, error := some ⟨-32601, "é\n", some .null⟩ }
    let read := Message.response
      { id := .null, result := some result, error := some ⟨-32601, "é\n", none⟩ }
    sent.Proper ∧ Message.parse sent.payload = .ok read ∧ Message.parse read.payload = .ok read := by
  intro result sent read
  -- The number is the least one that a text can hold, and the control character is escaped.
  have hresult : result.Canonical := by
    refine .object (by simp) ?_
    simp only [List.mem_singleton, forall_eq]
    refine .array ?_
    simp only [List.mem_cons, List.not_mem_nil, or_false, forall_eq_or_imp, forall_eq]
    exact ⟨.string _, .int (by decide) (by decide)⟩
  have hproper : sent.Proper := by
    refine ⟨nofun, ?_, ?_⟩
    · have hvalues : sent.values = [.null, result, .null] := rfl
      simp only [hvalues, List.mem_cons, List.not_mem_nil, or_false, forall_eq_or_imp, forall_eq]
      exact ⟨.null, hresult, .null⟩
    · simp [sent, result, toJson, Response.toJson, ErrorObject.toJson, optionalField, Json.depth,
        Json.depthFields, Json.depthItems, Json.maxDepth, Json.int]
  exact ⟨hproper, parse_payload hproper⟩

end Message

end LanguageClient.Rpc
