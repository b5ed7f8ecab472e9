import Stencil.Number.Binary64
import Stencil.Sorted

/-!
# Data values

The values that templates are filled with, that helpers take and return, and that options are given
as. Numbers keep apart integers and doubles; the members of an object are a sorted table.
-/

namespace Stencil

inductive Number where
  | int (value : Int)
  | double (value : Binary64)
deriving DecidableEq, Repr, Inhabited

/-- A data value. The members of an object are in ascending order of their names. -/
inductive Json where
  | null
  | bool (value : Bool)
  | number (value : Number)
  | string (value : String)
  | array (items : List Json)
  | object (members : List (String × Json))
deriving Repr, Inhabited

/-- Equality of numbers: an integer and a double are never the same number. -/
def Number.same : Number → Number → Bool
  | .int a, .int b => a == b
  | .double a, .double b => a.sameNumber b
  | _, _ => false

namespace Json

def ofNat (n : Nat) : Json := .number (.int n)

/-- The object with the given members; of two with one name the later counts. -/
def ofMembers (members : List (String × Json)) : Json := .object (Sorted.ofList members)

/-- Equality of values, by content; doubles are compared as numbers. -/
def same : Json → Json → Bool
  | .null, .null => true
  | .bool a, .bool b => a == b
  | .number a, .number b => a.same b
  | .string a, .string b => a == b
  | .array xs, .array ys => sameItems xs ys
  | .object xs, .object ys => sameMembers xs ys
  | _, _ => false
where
  sameItems : List Json → List Json → Bool
    | [], [] => true
    | x :: xs, y :: ys => same x y && sameItems xs ys
    | _, _ => false
  sameMembers : List (String × Json) → List (String × Json) → Bool
    | [], [] => true
    | (k, x) :: xs, (l, y) :: ys => k == l && same x y && sameMembers xs ys
    | _, _ => false

def member? (name : String) : Json → Option Json
  | .object members => members.lookup name
  | _ => none

def asInt64? : Json → Option Int
  | .number (.int n) => if Word.holdsSigned 64 n then some n else none
  | _ => none

def asNat? : Json → Option Nat
  | .number (.int (.ofNat n)) => some n
  | _ => none

def asString? : Json → Option String
  | .string s => some s
  | _ => none

def asBool? : Json → Option Bool
  | .bool b => some b
  | _ => none

end Json

end Stencil
