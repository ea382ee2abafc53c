import Mathlib.Algebra.Group.Int.Defs

/-!
# JSON values

The model of `serde_json::Value` and of the readers that the repository uses. A reader gives
`none` for a value of another type.
-/

set_option autoImplicit false

namespace Avon

/-- `serde_json::Value`. A number that is not written as an integer keeps its text. -/
inductive Json where
  | null
  | bool (b : Bool)
  | int (n : ℤ)
  | float (text : String)
  | string (s : String)
  | array (items : List Json)
  | object (fields : List (String × Json))

namespace Json

/-- `Value::get` of a key, `none` on anything but an object. -/
def get (j : Json) (key : String) : Option Json :=
  match j with
  | .object fields => (fields.find? fun f => f.1 = key).map Prod.snd
  | _ => none

/-- `Value::pointer`, for a path of keys that are no array indices. -/
def pointer (j : Json) : List String → Option Json
  | [] => some j
  | key :: path => (j.get key).bind fun v => v.pointer path

def asBool : Json → Option Bool
  | .bool b => some b
  | _ => none

def asStr : Json → Option String
  | .string s => some s
  | _ => none

def asI64 : Json → Option ℤ
  | .int n => if -2 ^ 63 ≤ n ∧ n < 2 ^ 63 then some n else none
  | _ => none

def asU64 : Json → Option ℕ
  | .int n => if 0 ≤ n ∧ n < 2 ^ 64 then some n.toNat else none
  | _ => none

def asArray : Json → Option (List Json)
  | .array items => some items
  | _ => none

end Json

end Avon
