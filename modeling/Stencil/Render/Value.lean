import Stencil.Json.Printer
import Stencil.Render.Text

/-!
# Values and where they come from

An operand of a tag has a value, and the engine remembers where it comes from: a literal, a place in
the data, or a computation; or there is none. Only a place in the data can become a new base of paths.
-/

namespace Stencil

/-- Truth of a value in conditions. A number is false if it is zero or too close to it to be a normal
double; with `includeZero` every number is true. -/
def Json.truthy (includeZero : Bool) : Json → Bool
  | .null => false
  | .bool b => b
  | .number (.int n) => includeZero || n != 0
  | .number (.double x) => includeZero || x.isNormal
  | .string s => s != ""
  | .array items => !items.isEmpty
  | .object members => !members.isEmpty

namespace Render

/-- A place in the data: the names and indices from the root. -/
abbrev DataPath := List String

inductive Resolved where
  | literal (value : Json)
  | computed (value : Json)
  | data (value : Json) (path : DataPath)
  | missing
deriving Repr, Inhabited

namespace Resolved

def value : Resolved → Json
  | literal v => v
  | computed v => v
  | data v _ => v
  | missing => .null

def isMissing : Resolved → Bool
  | missing => true
  | _ => false

def dataPath? : Resolved → Option DataPath
  | data _ path => some path
  | _ => none

/-- The value with its origin as messages show it. -/
def shown : Resolved → String
  | literal v => "Constant(" ++ v.shown ++ ")"
  | computed v => "Derived(" ++ v.shown ++ ")"
  | data v path =>
    "Context(" ++ v.shown ++ ", [" ++ ", ".intercalate (path.map Text.quoted) ++ "])"
  | missing => "Missing"

end Resolved

/-- An operand that has been evaluated, with its text if it was written as a path. -/
structure Argument where
  raw : Option String
  resolved : Resolved
deriving Repr, Inhabited

namespace Argument

def value (x : Argument) : Json := x.resolved.value

def shown (x : Argument) : String :=
  let raw := match x.raw with
    | some raw => "Some(" ++ Text.quoted raw ++ ")"
    | none => "None"
  "PathAndJson \x7b relative_path: " ++ raw ++ ", value: " ++ x.resolved.shown ++ " \x7d"

end Argument

/-- Evaluated arguments: in order, and by key. -/
structure Arguments where
  params : List Argument
  hash : List (String × Argument)
deriving Repr, Inhabited

end Render

end Stencil
