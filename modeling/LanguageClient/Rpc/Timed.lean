import LanguageClient.Rpc.Run

/-!
# `LanguageClient.Rpc.Timed`: calls with deadlines

A client beside a clock. Every call has a deadline; when the clock has reached
it and nothing has come, the call expires. A call that expires the moment it is
made has still been sent.

- `Timed.request`: make a call that has some time.
- `Timed.pass`: let time pass until a call has ended.
-/

set_option autoImplicit false

namespace LanguageClient.Rpc

/-- A client, the time, and when calls expire, in the order of the calls. -/
structure Timed (η : Type) where
  client : Client η := {}
  /-- The time, in milliseconds. -/
  clock : Nat := 0
  /-- The number of each call and the time at which it expires. -/
  deadlines : List (Nat × Nat) := []

namespace Timed

variable {η : Type}

/-- Let the client go on until nothing more can be done, at most `fuel` steps. -/
def settle (refusal : Option String) (fuel : Nat) (t : Timed η) : Timed η :=
  { t with client := t.client.settle refusal fuel }

/-- Let the calls expire whose time has come. -/
def expire (t : Timed η) : Timed η :=
  { t with
    client := t.deadlines.foldl
      (fun c (number, deadline) => if deadline ≤ t.clock then c.expire number else c) t.client }

/-- Make a call that has `time` milliseconds. -/
def request (t : Timed η) (method : String) (params : Option Json) (shape : Shape)
    (time : Nat) : Nat × Timed η :=
  let (number, client) := t.client.request method params shape
  (number, { t with client, deadlines := t.deadlines ++ [(number, t.clock + time)] })

/-- Let time pass until a call has ended: if it still waits, until its
deadline. -/
def pass (t : Timed η) (number : Nat) : Timed η :=
  match t.client.outcome? number, t.deadlines.lookup number with
  | none, some deadline => { t with clock := max t.clock deadline }.expire
  | _, _ => t.expire

end Timed

end LanguageClient.Rpc
