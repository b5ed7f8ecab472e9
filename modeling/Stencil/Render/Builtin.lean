import Stencil.Render.Value
import Stencil.Render.Failure

/-!
# Built-in helpers

The helpers that every engine has. Those that compute a value are here in full; those that render
their block or decide whether to are only named here.
-/

namespace Stencil.Render

inductive ValueHelper where
  | lookup
  | equal
  | unequal
  | greater
  | greaterOrEqual
  | less
  | lessOrEqual
  | both
  | either
  | negation
  | size
deriving DecidableEq, Repr

inductive BlockHelper where
  | whenTrue
  | whenFalse
  | each
  | within
  | raw
  | log
deriving DecidableEq, Repr

inductive Builtin where
  | value (helper : ValueHelper)
  | block (helper : BlockHelper)
deriving DecidableEq, Repr

def builtins : List (String × Builtin) := [
  ("if", .block .whenTrue), ("unless", .block .whenFalse), ("each", .block .each),
  ("with", .block .within), ("lookup", .value .lookup), ("raw", .block .raw), ("log", .block .log),
  ("eq", .value .equal), ("ne", .value .unequal), ("gt", .value .greater),
  ("gte", .value .greaterOrEqual), ("lt", .value .less), ("lte", .value .lessOrEqual),
  ("and", .value .both), ("or", .value .either), ("not", .value .negation), ("len", .value .size)]

def Builtin.named? (name : String) : Option Builtin := builtins.lookup name

def isBuiltin (name : String) : Bool := (Builtin.named? name).isSome

namespace ValueHelper

/-- An item of an array by an unsigned integer, or a member of an object by a text; else null. -/
def itemOf (collection index : Json) : Json :=
  match collection with
  | .array items => ((index.asNat?).bind (items[·]?)).getD .null
  | .object members => ((index.asString?).bind (members.lookup ·)).getD .null
  | _ => .null

/-- How much there is in a value: items, members, or bytes of a text. -/
def sizeOf : Json → Nat
  | .array items => items.length
  | .object members => members.length
  | .string s => s.utf8ByteSize
  | _ => 0

/-- A parameter, called by its letter in errors. In strict mode it must not be missing. -/
def read (strict : Bool) (helper param : String) (args : Arguments) (i : Nat) :
    Except Cause Argument :=
  match args.params[i]? with
  | some x =>
    if strict && x.resolved.isMissing then .error (.paramUnreadable helper param) else .ok x
  | none => .error (.paramUnreadable helper param)

def readInteger (strict : Bool) (helper param : String) (args : Arguments) (i : Nat) :
    Except Cause Int := do
  let x ← read strict helper param args i
  match x.value.asInt64? with
  | some n => return n
  | none => .error (.paramNotInteger helper param x.value args.params)

def test (strict : Bool) (helper : String) (args : Arguments) (p : Json → Json → Bool) :
    Except Cause Json := do
  let x ← read strict helper "x" args 0
  let y ← read strict helper "y" args 1
  return .bool (p x.value y.value)

def compare (strict : Bool) (helper : String) (args : Arguments) (p : Int → Int → Bool) :
    Except Cause Json := do
  let x ← readInteger strict helper "x" args 0
  let y ← readInteger strict helper "y" args 1
  return .bool (p x y)

def apply (strict : Bool) (args : Arguments) : ValueHelper → Except Cause Json
  | lookup =>
    match args.params with
    | [] => .error (.paramMissing "lookup")
    | [_] => .error (.paramsMissing "lookup")
    | collection :: index :: _ =>
      match itemOf collection.value index.value with
      | .null => if strict then .error .valueMissing else .ok .null
      | value => .ok value
  | equal => test strict "eq" args Json.same
  | unequal => test strict "ne" args fun x y => !x.same y
  | greater => compare strict "gt" args fun x y => y < x
  | greaterOrEqual => compare strict "gte" args fun x y => y ≤ x
  | less => compare strict "lt" args fun x y => x < y
  | lessOrEqual => compare strict "lte" args fun x y => x ≤ y
  | both => test strict "and" args fun x y => x.truthy false && y.truthy false
  | either => test strict "or" args fun x y => x.truthy false || y.truthy false
  | negation => do return .bool !(← read strict "not" "x" args 0).value.truthy false
  | size => do return .ofNat (sizeOf (← read strict "len" "x" args 0).value)

end ValueHelper

end Stencil.Render
