import LanguageClient.Rpc.Call

/-!
# `LanguageClient.Proofs.Rpc.Message`: what a message leaves out

A response may leave its result out or give `null` for it, and a reader cannot tell the
two apart.

* `ofJson?_null_result`: an object whose `result` is `null` is the same message as the
  object without that field.
* `outcome_of_error`: an error decides the outcome, whatever the result.
-/

set_option autoImplicit false

namespace LanguageClient

namespace Json

/-- Taking a field out of an object leaves the other fields. By induction on the fields, each of
which goes or stays. -/
theorem lookup_without_of_ne (fields : List (String × Json)) {key other : String}
    (h : other ≠ key) :
    lookup (fields.filter fun f => f.1 != key) other = lookup fields other := by
  rw [lookup, List.find?_filter, lookup]
  refine congrArg (fun p => (fields.find? p).map Prod.snd) (funext fun f => ?_)
  by_cases hf : f.1 = other
  · simp [hf, h]
  · simp [hf]

/-- The field that was taken out is not found any more, however often it was there. -/
theorem lookup_without_self (fields : List (String × Json)) (key : String) :
    lookup (fields.filter fun f => f.1 != key) key = none := by
  rw [lookup, List.find?_filter, Option.map_eq_none_iff, List.find?_eq_none]
  intro f _
  by_cases hf : f.1 = key
  · simp [hf]
  · simp [hf]

end Json

namespace Rpc

/-- A number of 32 bits is read back from its text. -/
theorem int32?_int (i : Int32) : int32? (.int i.toInt) = some i := by
  have hrange : Int32.minValue.toInt ≤ i.toInt ∧ i.toInt ≤ Int32.maxValue.toInt :=
    ⟨i.minValue_le_toInt, i.toInt_le⟩
  show (if Int32.minValue.toInt ≤ i.toInt ∧ i.toInt ≤ Int32.maxValue.toInt
    then some (Int32.ofInt i.toInt) else none) = some i
  rw [if_pos hrange, Int32.ofInt_toInt]

/-- An object without its result. -/
def withoutResult (fields : List (String × Json)) : List (String × Json) :=
  fields.filter fun f => f.1 != "result"

/-- Whether a result is `null` or absent makes no difference. Each of the three readers looks at
`result` only to see whether it has a value, and `null` counts as none. -/
theorem ofJson?_null_result {fields : List (String × Json)}
    (h : Json.lookup fields "result" = some .null) :
    Message.ofJson? (.object (withoutResult fields)) = Message.ofJson? (.object fields) := by
  -- Taking `result` out leaves the other fields, which are all that the readers of requests and of
  -- notifications look at. Only the reader of responses needs `h`.
  have other : ∀ name, name ≠ "result" →
      Json.lookup (withoutResult fields) name = Json.lookup fields name :=
    fun name hname => Json.lookup_without_of_ne fields hname
  have result : Json.lookup (withoutResult fields) "result" = none :=
    Json.lookup_without_self fields "result"
  have request : Request.ofJson? (.object (withoutResult fields)) =
      Request.ofJson? (.object fields) := by
    simp only [Request.ofJson?, fields?, List.map_cons, List.map_nil, other "jsonrpc" (by decide),
      other "id" (by decide), other "method" (by decide), other "params" (by decide)]
  have notification : Notification.ofJson? (.object (withoutResult fields)) =
      Notification.ofJson? (.object fields) := by
    simp only [Notification.ofJson?, fields?, List.map_cons, List.map_nil,
      other "jsonrpc" (by decide), other "method" (by decide), other "params" (by decide)]
  have response : Response.ofJson? (.object (withoutResult fields)) =
      Response.ofJson? (.object fields) := by
    simp only [Response.ofJson?, fields?, List.map_cons, List.map_nil,
      other "jsonrpc" (by decide), other "id" (by decide), other "error" (by decide), result, h]
    cases Json.lookup fields "jsonrpc" with
    | none => rfl
    | some version =>
      cases Json.lookup fields "id" with
      | none => rfl
      | some id => rfl
  simp only [Message.ofJson?, Json.get?, other "method" (by decide), other "id" (by decide),
    request, notification, response]

/-- An error counts before any result. -/
theorem outcome_of_error {r : Response} {e : ErrorObject} (h : r.error = some e) (shape : Shape) :
    r.outcome shape = .error (.server e) := by
  simp only [Response.outcome, h]

end Rpc

end LanguageClient
