import Stencil.Options.Shape

/-!
# Values of configuration files

What a configuration file can hold. Dates and times are kept as text in one spelling.
-/

namespace Stencil.Toml

/-- A value of a configuration file. A float that is too large for a double has none. -/
inductive Value where
  | text (value : String)
  | integer (value : Int)
  | float (value : Option Binary64)
  | boolean (value : Bool)
  | datetime (spelling : String)
  | array (items : List Value)
  | table (entries : List (String × Value))
deriving Repr, Inhabited

/-- The key under which the text of a date or time stands when it is looked at as a table. -/
def datetimeKey : String := "$__toml_private_datetime"

/-- A value as options see it. Arrays may have more items than there are options. -/
def Value.shape : Value → Shape
  | .text s => .text s
  | .integer n => .integer n
  | .float (some x) => .floatingPoint x.toPositionalText
  | .float none => .number "floating point" false
  | .boolean b => .bool b
  | .datetime spelling => .object [(datetimeKey, .text spelling)]
  | .array items => .array (shapes items) true
  | .table entries => .object (Sorted.ofList (entryShapes entries))
where
  shapes : List Value → List Shape
    | [] => []
    | x :: xs => shape x :: shapes xs
  entryShapes : List (String × Value) → List (String × Shape)
    | [] => []
    | (key, x) :: xs => (key, shape x) :: entryShapes xs

/-- Whether each integer in a value fits in 64 bits with a sign and each float in a double. -/
def Value.isStandard : Value → Bool
  | .integer n => Word.holdsSigned 64 n
  | .float x => x.isSome
  | .array items => areStandard items
  | .table entries => entriesStandard entries
  | _ => true
where
  areStandard : List Value → Bool
    | [] => true
    | x :: xs => isStandard x && areStandard xs
  entriesStandard : List (String × Value) → Bool
    | [] => true
    | (_, x) :: xs => isStandard x && entriesStandard xs

end Stencil.Toml
