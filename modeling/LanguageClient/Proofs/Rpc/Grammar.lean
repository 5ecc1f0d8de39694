import LanguageClient.Proofs.Rpc.Message

/-!
# `LanguageClient.Proofs.Rpc.Grammar`: which texts are messages

A message is an object, and its fields tell which message it is (`Tells`). A payload is read in
two steps: `method` and `id` are looked up to tell the kind, and then the fields are read as a
record of that kind. A record is also read from an array of all its values. An array has no
`method`, so that it can only be a response, or the error object of one (`Lists`).

* `Message.ofJson?_eq_some_iff`: a value is read as a message exactly if it tells or lists it.
* `Message.parse_eq_ok_iff`: the same for texts.
* `Tells.not_lists`: what fields tell is not listed.
* `exists_request_iff`, `exists_notification_iff`, `exists_response_iff`: which fields an object
  of each kind has.
-/

set_option autoImplicit false

namespace LanguageClient.Rpc

open Json (lookup presence)

variable {fields : List (String × Json)} {v : Json}

/-! ### What fields tell -/

/-- An error object: a code of 32 bits, a text, and perhaps data. -/
structure TellsError (fields : List (String × Json)) (e : ErrorObject) : Prop where
  code : lookup fields "code" = some (.int e.code.toInt)
  text : lookup fields "message" = some (.string e.text)
  data : e.data = presence (lookup fields "data")

/-- The `error` field of a response: absent, `null`, or an error object. -/
inductive ErrorField : Option Json → Option ErrorObject → Prop where
  | absent : ErrorField none none
  | null : ErrorField (some .null) none
  | object {fields : List (String × Json)} {e : ErrorObject} (tells : TellsError fields e) :
      ErrorField (some (.object fields)) (some e)

/-- What is common to the fields of a request and of a notification. -/
structure TellsCall (fields : List (String × Json)) (version method : String)
    (params : Option Json) : Prop where
  version : lookup fields "jsonrpc" = some (.string version)
  method : lookup fields "method" = some (.string method)
  params : params = presence (lookup fields "params")

/-- What the fields of a response tell beside its error. -/
structure TellsAnswer (fields : List (String × Json)) (r : Response) : Prop where
  noMethod : lookup fields "method" = none
  version : lookup fields "jsonrpc" = some (.string r.version)
  id : lookup fields "id" = some r.id
  result : r.result = presence (lookup fields "result")

/-- The message that the fields of an object tell. -/
inductive Tells (fields : List (String × Json)) : Message → Prop where
  | request {r : Request} (call : TellsCall fields r.version r.method r.params)
      (id : lookup fields "id" = some r.id) (present : r.id ≠ .null) : Tells fields (.request r)
  | notification {n : Notification} (call : TellsCall fields n.version n.method n.params)
      (noId : lookup fields "id" = none ∨ lookup fields "id" = some .null) :
      Tells fields (.notification n)
  | response {r : Response} (answer : TellsAnswer fields r)
      (error : ErrorField (lookup fields "error") r.error) : Tells fields (.response r)

/-! ### What arrays list -/

/-- The values of an error object, in their order. -/
inductive ListsError : Json → ErrorObject → Prop where
  | mk {e : ErrorObject} {data : Json} (hdata : e.data = presence (some data)) :
      ListsError (.array [.int e.code.toInt, .string e.text, data]) e

/-- A response of which something is listed: all of it, or its error. -/
inductive Lists : Json → Response → Prop where
  | response {r : Response} {result error : Json} (hresult : r.result = presence (some result))
      (herror : ErrorField (some error) r.error ∨ ∃ e, ListsError error e ∧ r.error = some e) :
      Lists (.array [.string r.version, r.id, result, error]) r
  | error {fields : List (String × Json)} {r : Response} {error : Json} {e : ErrorObject}
      (answer : TellsAnswer fields r) (field : lookup fields "error" = some error)
      (lists : ListsError error e) (herror : r.error = some e) : Lists (.object fields) r

/-! ### Values -/

/-- Only a text is read as a text. -/
theorem string?_eq_some_iff {s : String} : string? v = some s ↔ v = .string s := by
  cases v <;> simp [string?]

/-- Only a whole number of 32 bits is read as a code, and it is read as itself. A number beyond that
range is refused and not cut to fit. -/
theorem int32?_eq_some_iff {i : Int32} : int32? v = some i ↔ v = .int i.toInt := by
  constructor
  · intro h
    unfold int32? at h
    split at h
    · split at h
      · rename_i n hrange
        obtain rfl := Option.some.inj h
        rw [Int32.toInt_minValue, Int32.toInt_maxValue] at hrange
        -- In this range nothing is cut off.
        rw [Int32.toInt_ofInt_of_le hrange.1 (by omega)]
        rfl
      · exact nomatch h
    · exact nomatch h
  · rintro rfl
    exact int32?_int i

/-- A value is not present if it is absent or `null`: readers of optional fields do not tell the two
apart. -/
theorem presence_eq_none_iff {v : Option Json} :
    presence v = none ↔ v = none ∨ v = some .null := by
  unfold presence
  split
  · simp
  · rename_i hnot
    cases v with
    | none => simp
    | some v => simpa using hnot

/-- A value that is not `null` is present. An optional field that is `null` counts as one that is
not there. -/
theorem presence_eq_some_iff {v : Option Json} {w : Json} :
    presence v = some w ↔ v = some w ∧ w ≠ .null := by
  unfold presence
  split
  · constructor
    · exact nofun
    · rintro ⟨heq, hpresent⟩
      exact absurd (Option.some.inj heq).symm hpresent
  · -- It is not `null`, so it is present as it is.
    rename_i hnot
    constructor
    · rintro rfl
      exact ⟨rfl, fun hnull => hnot (congrArg some hnull)⟩
    · exact fun h => h.1

/-! ### Records -/

/-- A record is read from the values that an object has under its names, or from an array of just as
many values. The second way is what lets an array pass for a message. -/
theorem fields?_eq_some_iff {names : List String} {values : List (Option Json)} :
    fields? names v = some values ↔
      (∃ fields, v = .object fields ∧ values = names.map (lookup fields)) ∨
        ∃ items, v = .array items ∧ items.length = names.length ∧ values = items.map some := by
  cases v with
  | object fields => simp [fields?, eq_comm]
  | array items => simp [fields?, eq_comm]
  | _ => simp [fields?]

/-- What is read as an error object, by its three values. Whether an object or an array has them is
left to `fields?_eq_some_iff`. -/
theorem ofJson?_error_iff_fields {e : ErrorObject} :
    ErrorObject.ofJson? v = some e ↔
      ∃ data, e.data = presence data ∧ fields? ["code", "message", "data"] v =
        some [some (.int e.code.toInt), some (.string e.text), data] := by
  unfold ErrorObject.ofJson?
  split
  · rename_i code text data hfields
    simp only [bind, pure, Option.bind_eq_some_iff, int32?_eq_some_iff, string?_eq_some_iff,
      Option.some.injEq, hfields, List.cons.injEq, and_true]
    constructor
    · rintro ⟨i, rfl, s, rfl, rfl⟩
      exact ⟨data, rfl, rfl, rfl, rfl⟩
    · rintro ⟨data', hdata, rfl, rfl, rfl⟩
      exact ⟨e.code, rfl, e.text, rfl, by rw [← hdata]⟩
  · -- Without the three values nothing is read, and no object could give them.
    rename_i hnot
    constructor
    · exact nofun
    · rintro ⟨data, -, hfields⟩
      exact absurd hfields (hnot _ _ _)

/-- An error object is told by the fields of an object or listed by an array. The second way comes
from how records are read, and is why `ListsError` is there. -/
theorem ofJson?_error_eq_some_iff {e : ErrorObject} :
    ErrorObject.ofJson? v = some e ↔
      (∃ fields, v = .object fields ∧ TellsError fields e) ∨ ListsError v e := by
  rw [ofJson?_error_iff_fields]
  constructor
  · rintro ⟨data, hdata, hfields⟩
    -- The three values come from an object under their names, or are the items of an array.
    rcases fields?_eq_some_iff.mp hfields with ⟨fields, rfl, hvalues⟩ | ⟨items, rfl, -, hvalues⟩
    · simp only [List.map_cons, List.map_nil, List.cons.injEq, and_true] at hvalues
      obtain ⟨hcode, htext, rfl⟩ := hvalues
      exact .inl ⟨fields, rfl, hcode.symm, htext.symm, hdata⟩
    · have hitems := hvalues.symm
      simp only [List.map_eq_cons_iff, List.map_eq_nil_iff, Option.some.injEq] at hitems
      obtain ⟨_, _, rfl, rfl, _, _, rfl, rfl, item, _, rfl, rfl, rfl⟩ := hitems
      exact .inr (.mk hdata)
  · rintro (⟨fields, rfl, htells⟩ | hlists)
    · refine ⟨lookup fields "data", htells.data, ?_⟩
      simp only [fields?, List.map_cons, List.map_nil, htells.code, htells.text]
    · cases hlists with
      | @mk _ data hdata => exact ⟨some data, hdata, rfl⟩

/-- Read the error of a response. -/
def readError (error : Option Json) : Option (Option ErrorObject) :=
  match presence error with
  | none => some none
  | some v => (ErrorObject.ofJson? v).map some

/-- The error of a response is what its field tells, or an error object that is listed there. A
field that is absent or `null` is no error; with any other value, reading the response stands or
falls with it. -/
theorem readError_eq_some_iff {error : Option Json} {e : Option ErrorObject} :
    readError error = some e ↔
      ErrorField error e ∨ ∃ v e', error = some v ∧ ListsError v e' ∧ e = some e' := by
  unfold readError
  constructor
  · intro h
    split at h
    · rename_i hnone
      obtain rfl := Option.some.inj h
      rcases presence_eq_none_iff.mp hnone with rfl | rfl
      · exact .inl .absent
      · exact .inl .null
    · rename_i v hsome
      obtain ⟨rfl, -⟩ := presence_eq_some_iff.mp hsome
      obtain ⟨e', hread, rfl⟩ := Option.map_eq_some_iff.mp h
      rcases ofJson?_error_eq_some_iff.mp hread with ⟨fields, rfl, htells⟩ | hlists
      · exact .inl (.object htells)
      · exact .inr ⟨v, e', rfl, hlists, rfl⟩
  · -- `presence` evaluates once the form of the value is known, so the cases come first.
    rintro (hfield | ⟨v, e', rfl, hlists, rfl⟩)
    · cases hfield with
      | absent => rfl
      | null => rfl
      | object htells =>
        have hread := ofJson?_error_eq_some_iff.mpr (.inl ⟨_, rfl, htells⟩)
        exact congrArg (Option.map some) hread
    · have hread := ofJson?_error_eq_some_iff.mpr (.inr hlists)
      cases hlists with
      | mk => exact congrArg (Option.map some) hread

/-- What is read as a request, by its four values. Whether they come from an object or from an array
is left to `fields?`. -/
theorem ofJson?_request_iff_fields {r : Request} :
    Request.ofJson? v = some r ↔
      ∃ params, r.params = presence params ∧ fields? ["jsonrpc", "id", "method", "params"] v =
        some [some (.string r.version), some r.id, some (.string r.method), params] := by
  unfold Request.ofJson?
  split
  · rename_i version id method params hfields
    simp only [bind, pure, Option.bind_eq_some_iff, string?_eq_some_iff, Option.some.injEq, hfields,
      List.cons.injEq, and_true]
    constructor
    · rintro ⟨s, rfl, m, rfl, rfl⟩
      exact ⟨params, rfl, rfl, rfl, rfl, rfl⟩
    · rintro ⟨params', hparams, rfl, rfl, rfl, rfl⟩
      exact ⟨r.version, rfl, r.method, rfl, by rw [← hparams]⟩
  · rename_i hnot
    constructor
    · exact nofun
    · rintro ⟨params, -, hfields⟩
      exact absurd hfields (hnot _ _ _ _)

/-- What is read as a notification, by its three values. Whether they come from an object or from an
array is left to `fields?`. -/
theorem ofJson?_notification_iff_fields {n : Notification} :
    Notification.ofJson? v = some n ↔
      ∃ params, n.params = presence params ∧ fields? ["jsonrpc", "method", "params"] v =
        some [some (.string n.version), some (.string n.method), params] := by
  unfold Notification.ofJson?
  split
  · rename_i version method params hfields
    simp only [bind, pure, Option.bind_eq_some_iff, string?_eq_some_iff, Option.some.injEq, hfields,
      List.cons.injEq, and_true]
    constructor
    · rintro ⟨s, rfl, m, rfl, rfl⟩
      exact ⟨params, rfl, rfl, rfl, rfl⟩
    · rintro ⟨params', hparams, rfl, rfl, rfl⟩
      exact ⟨n.version, rfl, n.method, rfl, by rw [← hparams]⟩
  · rename_i hnot
    constructor
    · exact nofun
    · rintro ⟨params, -, hfields⟩
      exact absurd hfields (hnot _ _ _)

/-- Once the four values are there, reading a response comes down to its error and its version. An
error that cannot be read is a reason to refuse the whole response. -/
theorem ofJson?_response_of_fields {version id : Json} {result error : Option Json}
    (h : fields? ["jsonrpc", "id", "result", "error"] v =
      some [some version, some id, result, error]) :
    Response.ofJson? v = (readError error).bind fun error =>
      (string? version).bind fun version => some ⟨version, id, presence result, error⟩ := by
  unfold Response.ofJson? readError
  rw [h]
  dsimp only
  cases presence error with
  | none => rfl
  | some v => rfl

/-- What is read as a response, by its four values. Whether they come from an object or from an
array is left to `fields?`. -/
theorem ofJson?_response_iff_fields {r : Response} :
    Response.ofJson? v = some r ↔
      ∃ result error, r.result = presence result ∧ readError error = some r.error ∧
        fields? ["jsonrpc", "id", "result", "error"] v =
          some [some (.string r.version), some r.id, result, error] := by
  constructor
  · intro h
    -- The version and the id are there, or it would not have been read. Result and error may be
    -- absent.
    have hfields : ∃ version id result error, fields? ["jsonrpc", "id", "result", "error"] v =
        some [some version, some id, result, error] := by
      unfold Response.ofJson? at h
      split at h
      · exact ⟨_, _, _, _, ‹_›⟩
      · exact nomatch h
    obtain ⟨version, id, result, error, hfields⟩ := hfields
    rw [ofJson?_response_of_fields hfields, Option.bind_eq_some_iff] at h
    obtain ⟨e, herror, hrest⟩ := h
    obtain ⟨s, hversion, heq⟩ := Option.bind_eq_some_iff.mp hrest
    obtain rfl := string?_eq_some_iff.mp hversion
    cases heq
    exact ⟨result, error, rfl, herror, hfields⟩
  · rintro ⟨result, error, hresult, herror, hfields⟩
    rw [ofJson?_response_of_fields hfields, herror, ← hresult]
    rfl

/-! ### Messages -/

/-- An object is read as a request exactly if its fields tell the call and it has the id. That the
id is not `null` is asked where the kind is told, not here. -/
theorem ofJson?_request_eq_some_iff {r : Request} :
    Request.ofJson? (.object fields) = some r ↔
      TellsCall fields r.version r.method r.params ∧ lookup fields "id" = some r.id := by
  rw [ofJson?_request_iff_fields]
  simp only [fields?, List.map_cons, List.map_nil, Option.some.injEq, List.cons.injEq, and_true]
  constructor
  · rintro ⟨params, hparams, hversion, hid, hmethod, rfl⟩
    exact ⟨⟨hversion, hmethod, hparams⟩, hid⟩
  · rintro ⟨⟨hversion, hmethod, hparams⟩, hid⟩
    exact ⟨_, hparams, hversion, hid, hmethod, rfl⟩

/-- An object is read as a notification exactly if its fields tell the call. Fields besides these
are not looked at. -/
theorem ofJson?_notification_eq_some_iff {n : Notification} :
    Notification.ofJson? (.object fields) = some n ↔
      TellsCall fields n.version n.method n.params := by
  rw [ofJson?_notification_iff_fields]
  simp only [fields?, List.map_cons, List.map_nil, Option.some.injEq, List.cons.injEq, and_true]
  constructor
  · rintro ⟨params, hparams, hversion, hmethod, rfl⟩
    exact ⟨hversion, hmethod, hparams⟩
  · rintro ⟨hversion, hmethod, hparams⟩
    exact ⟨_, hparams, hversion, hmethod, rfl⟩

/-- A value without a `method` is read as a response if its fields tell one, or if it lists one.
Listed may be the whole response, or only the error of an object. -/
theorem ofJson?_response_eq_some_iff {r : Response} (hmethod : v.get? "method" = none) :
    Response.ofJson? v = some r ↔
      (∃ fields, v = .object fields ∧ Tells fields (.response r)) ∨ Lists v r := by
  rw [ofJson?_response_iff_fields]
  constructor
  · -- The record is read from an object or from an array, and the error in it once more.
    rintro ⟨result, error, hresult, herror, hfields⟩
    have hread := readError_eq_some_iff.mp herror
    rcases fields?_eq_some_iff.mp hfields with ⟨fields, rfl, hvalues⟩ | ⟨items, rfl, -, hvalues⟩
    · simp only [List.map_cons, List.map_nil, List.cons.injEq, and_true] at hvalues
      obtain ⟨hversion, hid, rfl, rfl⟩ := hvalues
      have hanswer : TellsAnswer fields r := ⟨hmethod, hversion.symm, hid.symm, hresult⟩
      rcases hread with hfield | ⟨w, e, herror, hlists, he⟩
      · exact .inl ⟨fields, rfl, .response hanswer hfield⟩
      · exact .inr (.error hanswer herror hlists he)
    · have hitems := hvalues.symm
      simp only [List.map_eq_cons_iff, List.map_eq_nil_iff, Option.some.injEq] at hitems
      obtain ⟨_, _, rfl, rfl, _, _, rfl, rfl, item, _, rfl, rfl, last, _, rfl, rfl, rfl⟩ := hitems
      refine .inr (.response hresult ?_)
      rcases hread with hfield | ⟨w, e, herror, hlists, he⟩
      · exact .inl hfield
      · exact .inr ⟨e, Option.some.inj herror ▸ hlists, he⟩
  · rintro (⟨fields, rfl, htells⟩ | hlists)
    · -- What is told is read from the object, under its names.
      cases htells with
      | response answer error =>
        refine ⟨_, _, answer.result, readError_eq_some_iff.mpr (.inl error), ?_⟩
        simp only [fields?, List.map_cons, List.map_nil, answer.version, answer.id]
    · -- What is listed is an array of four values, or an object with an array for its error.
      cases hlists with
      | @response _ result error hresult herror =>
        refine ⟨some result, some error, hresult, readError_eq_some_iff.mpr ?_, rfl⟩
        rcases herror with hfield | ⟨e, hlists, he⟩
        · exact .inl hfield
        · exact .inr ⟨error, e, rfl, hlists, he⟩
      | error answer field lists herror =>
        have hread := readError_eq_some_iff.mpr (.inr ⟨_, _, field, lists, herror⟩)
        refine ⟨_, _, answer.result, hread, ?_⟩
        simp only [fields?, List.map_cons, List.map_nil, answer.version, answer.id]

/-- An object with a `method` lists nothing. -/
theorem not_lists_of_method {method : Json} (hmethod : lookup fields "method" = some method)
    (r : Response) : ¬ Lists (.object fields) r := by
  intro hlists
  cases hlists with
  | error answer => exact nomatch answer.noMethod.symm.trans hmethod

/-- What fields tell is not listed: to be listed, the error would have to be an array, and an error
that fields tell is an object. -/
theorem Tells.not_lists {m : Message} (h : Tells fields m) (r : Response) :
    ¬ Lists (.object fields) r := by
  cases h with
  | request call => exact not_lists_of_method call.method r
  | notification call => exact not_lists_of_method call.method r
  | response answer error =>
    intro hlists
    cases hlists with
    | error answer' field lists =>
      rw [field] at error
      cases lists
      exact nomatch error

namespace Message

/-- Without a `method` a value can only be a response. -/
theorem ofJson?_of_no_method (hmethod : v.get? "method" = none) :
    ofJson? v = (Response.ofJson? v).map .response := by
  unfold ofJson?
  rw [hmethod]

/-- With a `method` and an id that is not `null` it can only be a request. -/
theorem ofJson?_of_id {method id : Json} (hmethod : lookup fields "method" = some method)
    (hid : presence (lookup fields "id") = some id) :
    ofJson? (.object fields) = (Request.ofJson? (.object fields)).map .request := by
  simp only [ofJson?, Json.get?, hmethod, hid]

/-- With a `method` and no such id it can only be a notification. -/
theorem ofJson?_of_no_id {method : Json} (hmethod : lookup fields "method" = some method)
    (hid : presence (lookup fields "id") = none) :
    ofJson? (.object fields) = (Notification.ofJson? (.object fields)).map .notification := by
  simp only [ofJson?, Json.get?, hmethod, hid]

/-- An object with a `method` is read as the message that its fields tell. The id decides between
the two kinds, in reading as in `Tells`. -/
theorem ofJson?_of_method {method : Json} (hmethod : lookup fields "method" = some method)
    {m : Message} : ofJson? (.object fields) = some m ↔ Tells fields m := by
  cases hid : presence (lookup fields "id") with
  | some id =>
    rw [ofJson?_of_id hmethod hid, Option.map_eq_some_iff]
    have hpresent := presence_eq_some_iff.mp hid
    constructor
    · rintro ⟨r, hread, rfl⟩
      obtain ⟨hcall, heq⟩ := ofJson?_request_eq_some_iff.mp hread
      obtain rfl : r.id = id := Option.some.inj (heq.symm.trans hpresent.1)
      exact .request hcall heq hpresent.2
    · intro htells
      cases htells with
      | request call id => exact ⟨_, ofJson?_request_eq_some_iff.mpr ⟨call, id⟩, rfl⟩
      -- Fields of another kind would contradict what is known of `id` or of `method`.
      | notification call noId => exact nomatch (presence_eq_none_iff.mpr noId).symm.trans hid
      | response answer => exact nomatch answer.noMethod.symm.trans hmethod
  | none =>
    rw [ofJson?_of_no_id hmethod hid, Option.map_eq_some_iff]
    constructor
    · rintro ⟨n, hread, rfl⟩
      have hcall := ofJson?_notification_eq_some_iff.mp hread
      exact .notification hcall (presence_eq_none_iff.mp hid)
    · intro htells
      cases htells with
      | request call id present =>
        exact nomatch (presence_eq_some_iff.mpr ⟨id, present⟩).symm.trans hid
      | notification call => exact ⟨_, ofJson?_notification_eq_some_iff.mpr call, rfl⟩
      | response answer => exact nomatch answer.noMethod.symm.trans hmethod

/-- A value is read as a message exactly if it is an object whose fields tell it, or if it lists a
response. The cases are those of the reader: it asks for a `method` first. -/
theorem ofJson?_eq_some_iff {m : Message} :
    ofJson? v = some m ↔
      (∃ fields, v = .object fields ∧ Tells fields m) ∨ ∃ r, m = .response r ∧ Lists v r := by
  cases hmethod : v.get? "method" with
  | none =>
    -- Only a response is left, and it can be told or listed.
    rw [ofJson?_of_no_method hmethod, Option.map_eq_some_iff]
    constructor
    · rintro ⟨r, hread, rfl⟩
      rcases (ofJson?_response_eq_some_iff hmethod).mp hread with htells | hlists
      · exact .inl htells
      · exact .inr ⟨r, rfl, hlists⟩
    · rintro (⟨fields, rfl, htells⟩ | ⟨r, rfl, hlists⟩)
      · cases htells with
        | request call => exact nomatch call.method.symm.trans hmethod
        | notification call => exact nomatch call.method.symm.trans hmethod
        | response answer error =>
          have htold := Tells.response answer error
          exact ⟨_, (ofJson?_response_eq_some_iff hmethod).mpr (.inl ⟨fields, rfl, htold⟩), rfl⟩
      · exact ⟨r, (ofJson?_response_eq_some_iff hmethod).mpr (.inr hlists), rfl⟩
  | some method =>
    -- Only an object has a `method`.
    cases v with
    | object fields =>
      rw [ofJson?_of_method hmethod]
      constructor
      · intro htells
        exact .inl ⟨fields, rfl, htells⟩
      · rintro (⟨fields', heq, htells⟩ | ⟨r, -, hlists⟩)
        · cases heq
          exact htells
        · exact absurd hlists (not_lists_of_method hmethod r)
    | _ => exact nomatch hmethod

end Message

/-! ### Texts -/

/-- The message that a payload tells: it is the text of an object whose fields do. -/
def TellsText (payload : List Char) (m : Message) : Prop :=
  ∃ fields, Json.parse payload = .ok (.object fields) ∧ Tells fields m

/-- The response that a payload lists: it is the text of a value that does. -/
def ListsText (payload : List Char) (r : Response) : Prop :=
  ∃ v, Json.parse payload = .ok v ∧ Lists v r

/-- A payload is read as a message exactly if it tells the message or lists it. Since a text has one
value at most, this is the grammar of payloads. -/
theorem Message.parse_eq_ok_iff {payload : List Char} {m : Message} :
    Message.parse payload = .ok m ↔
      TellsText payload m ∨ ∃ r, m = .response r ∧ ListsText payload r := by
  unfold TellsText ListsText Message.parse
  cases Json.parse payload with
  | error fault =>
    simp only [bind, Except.bind, reduceCtorEq, false_and, exists_false, and_false, or_self]
  | ok v =>
    simp only [bind, Except.bind, Except.ok.injEq, exists_eq_left']
    rw [← Message.ofJson?_eq_some_iff]
    cases Message.ofJson? v with
    | none => simp
    | some m' => simp [pure, Except.pure]

/-! ### Which fields there are -/

/-- A field that is a text. -/
def HasText (fields : List (String × Json)) (name : String) : Prop :=
  ∃ s, lookup fields name = some (.string s)

/-- An `id` that is not `null`. -/
def HasId (fields : List (String × Json)) : Prop :=
  ∃ id, lookup fields "id" = some id ∧ id ≠ .null

/-- An `error` that is absent, `null`, or an object with a code of 32 bits and a text. -/
def FitsError : Option Json → Prop
  | none | some .null => True
  | some (.object fields) =>
    (∃ code : Int32, lookup fields "code" = some (.int code.toInt)) ∧ HasText fields "message"
  | some _ => False

/-- Which values of `error` a response can have, whatever they are read as. This is how a response
can be told from what is none by its fields alone. -/
theorem exists_errorField_iff {error : Option Json} :
    (∃ e, ErrorField error e) ↔ FitsError error := by
  constructor
  · rintro ⟨e, hfield⟩
    cases hfield with
    | absent => exact trivial
    | null => exact trivial
    | object tells => exact ⟨⟨_, tells.code⟩, _, tells.text⟩
  · -- The object that `FitsError` asks for is the one to read, whatever its data are.
    intro hfits
    match error, hfits with
    | none, _ => exact ⟨none, .absent⟩
    | some .null, _ => exact ⟨none, .null⟩
    | some (.object fields), ⟨⟨code, hcode⟩, text, htext⟩ =>
      exact ⟨some ⟨code, text, presence (lookup fields "data")⟩, .object ⟨hcode, htext, rfl⟩⟩

/-- Which fields a request has: the version and the method as texts, and an id. The parameters may
be anything or absent. -/
theorem exists_request_iff :
    (∃ r, Tells fields (.request r)) ↔
      HasText fields "jsonrpc" ∧ HasText fields "method" ∧ HasId fields := by
  constructor
  · rintro ⟨r, htells⟩
    cases htells with
    | request call id present => exact ⟨⟨_, call.version⟩, ⟨_, call.method⟩, _, id, present⟩
  · rintro ⟨⟨version, hversion⟩, ⟨method, hmethod⟩, id, hid, hpresent⟩
    exact ⟨⟨version, id, method, _⟩, .request ⟨hversion, hmethod, rfl⟩ hid hpresent⟩

/-- Which fields a notification has: those of a request, with the id absent or `null`. The
parameters may be anything or absent. -/
theorem exists_notification_iff :
    (∃ n, Tells fields (.notification n)) ↔
      HasText fields "jsonrpc" ∧ HasText fields "method" ∧
        (lookup fields "id" = none ∨ lookup fields "id" = some .null) := by
  constructor
  · rintro ⟨n, htells⟩
    cases htells with
    | notification call noId => exact ⟨⟨_, call.version⟩, ⟨_, call.method⟩, noId⟩
  · rintro ⟨⟨version, hversion⟩, ⟨method, hmethod⟩, hid⟩
    exact ⟨⟨version, method, _⟩, .notification ⟨hversion, hmethod, rfl⟩ hid⟩

/-- Which fields a response has: no method, the version, an id of any kind, and an error that fits.
The result may be anything or missing. -/
theorem exists_response_iff :
    (∃ r, Tells fields (.response r)) ↔
      lookup fields "method" = none ∧ HasText fields "jsonrpc" ∧
        (∃ id, lookup fields "id" = some id) ∧ FitsError (lookup fields "error") := by
  rw [← exists_errorField_iff]
  constructor
  · rintro ⟨r, htells⟩
    cases htells with
    | response answer error =>
      exact ⟨answer.noMethod, ⟨_, answer.version⟩, ⟨_, answer.id⟩, _, error⟩
  · rintro ⟨hmethod, ⟨version, hversion⟩, ⟨id, hid⟩, e, herror⟩
    exact ⟨⟨version, id, _, e⟩, .response ⟨hmethod, hversion, hid, rfl⟩ herror⟩

end LanguageClient.Rpc
