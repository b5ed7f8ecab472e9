import Stencil.Options.Plugin
import Stencil.Text.Quoted

/-!
# Reading options from a value

Options come as a value, from either data format. Members are looked at in ascending order of their
names and the first wrong one is the error. Compile options refuse unknown members, plugin options
ignore them. As an object's members can be given in order, an array may stand in place of an object;
options for which it has no item are not set.
-/

namespace Stencil

inductive ShapeError where
  | wrongType (found : String) (expected : String)
  | unknownField (name : String)
  | tooLong (length : Nat)
  | numberTooLarge
deriving DecidableEq, Repr

namespace ShapeError

def ticked (name : String) : String := "\x60" ++ name ++ "\x60"

def message : ShapeError → String
  | wrongType found expected => "invalid type: " ++ found ++ ", expected " ++ expected
  | unknownField name =>
    "unknown field " ++ ticked name ++ ", expected one of " ++
      ", ".intercalate (CompileOptions.fieldNames.map ticked)
  | tooLong length => "invalid length " ++ toString length ++ ", expected fewer elements in array"
  | numberTooLarge => "number out of range"

end ShapeError

/-- A value as options see it. No option is a number, so only what an error says of one is kept, and
whether it is one that can be passed over. The members of an object are in ascending order of their
names. -/
inductive Shape where
  | null
  | bool (value : Bool)
  | text (value : String)
  | number (found : String) (inRange : Bool)
  | array (items : List Shape) (mayBeLonger : Bool)
  | object (members : List (String × Shape))

namespace Shape

/-- An integer. One that needs more than 128 bits is out of range. -/
def integer (n : Int) : Shape :=
  .number ("integer " ++ ShapeError.ticked (toString n))
    (Word.holdsSigned 128 n || Word.holdsUnsigned 128 n)

/-- A floating point number that is written like this. -/
def floatingPoint (text : String) : Shape :=
  .number ("floating point " ++ ShapeError.ticked text) true

/-- A data value as options see it. Arrays in it may have no more items than there are options. -/
def ofJson : Json → Shape
  | .null => .null
  | .bool b => .bool b
  | .number (.int n) => integer n
  | .number (.double x) => floatingPoint x.toText
  | .string s => .text s
  | .array items => .array (ofItems items) false
  | .object members => .object (ofMembers members)
where
  ofItems : List Json → List Shape
    | [] => []
    | x :: xs => ofJson x :: ofItems xs
  ofMembers : List (String × Json) → List (String × Shape)
    | [] => []
    | (name, x) :: xs => (name, ofJson x) :: ofMembers xs

def found : Shape → String
  | .null => "null"
  | .bool b => "boolean " ++ ShapeError.ticked (if b then "true" else "false")
  | .text s => "string " ++ Text.quoted s
  | .number found _ => found
  | .array .. => "sequence"
  | .object _ => "map"

def wrong {α : Type} (value : Shape) (expected : String) : Except ShapeError α :=
  .error (.wrongType value.found expected)

/-- A value that is ignored: only a number out of range is an error in it. -/
def ignored : Shape → Except ShapeError Unit
  | .number _ false => .error .numberTooLarge
  | .array items _ => ignoredItems items
  | .object members => ignoredMembers members
  | _ => .ok ()
where
  ignoredItems : List Shape → Except ShapeError Unit
    | [] => .ok ()
    | x :: xs => do
      ignored x
      ignoredItems xs
  ignoredMembers : List (String × Shape) → Except ShapeError Unit
    | [] => .ok ()
    | (_, x) :: xs => do
      ignored x
      ignoredMembers xs

def asBool : Shape → Except ShapeError Bool
  | .bool b => .ok b
  | value => wrong value "a boolean"

def asText (expected : String) : Shape → Except ShapeError String
  | .text s => .ok s
  | value => wrong value expected

/-- Nothing for null, else what `read` makes of the value. -/
def optional {α : Type} (read : Shape → Except ShapeError α) : Shape → Except ShapeError (Option α)
  | .null => .ok none
  | value => (read value).map some

def asKnownHelpers : Shape → Except ShapeError KnownHelpers
  | .object members => do
    let entries ← members.mapM fun (name, value) => return (name, ← asBool value)
    return KnownHelpers.ofList entries
  | value => wrong value "a map"

/-- The options with one of them read from a value. -/
def setCompileOption (o : CompileOptions) (name : String) (value : Shape) :
    Except ShapeError CompileOptions :=
  let switch := optional asBool value
  match name with
  | "data" => return { o with data := ← switch }
  | "compat" => return { o with compat := ← switch }
  | "knownHelpers" => return { o with knownHelpers := ← optional asKnownHelpers value }
  | "knownHelpersOnly" => return { o with knownHelpersOnly := ← switch }
  | "noEscape" => return { o with noEscape := ← switch }
  | "strict" => return { o with strict := ← switch }
  | "assumeObjects" => return { o with assumeObjects := ← switch }
  | "preventIndent" => return { o with preventIndent := ← switch }
  | "ignoreStandalone" => return { o with ignoreStandalone := ← switch }
  | "explicitPartialContext" => return { o with explicitPartialContext := ← switch }
  | unknown => .error (.unknownField unknown)

/-- A record whose fields are set one by one, from an object or from an array in field order. -/
def record {α : Type} (expected : String) (fieldNames : List String) (unset : α)
    (set : α → String → Shape → Except ShapeError α) : Shape → Except ShapeError α
  | .object members => members.foldlM (fun o (name, value) => set o name value) unset
  | .array items mayBeLonger => do
    let o ← (fieldNames.zip items).foldlM (fun o (name, value) => set o name value) unset
    if !mayBeLonger && fieldNames.length < items.length then .error (.tooLong items.length)
    else return o
  | value => wrong value expected

end Shape

def CompileOptions.ofShape (value : Shape) : Except ShapeError CompileOptions :=
  Shape.record "struct CompileOptions" fieldNames {} Shape.setCompileOption value

/-- The options with one of them read from a value; other names are ignored. -/
def Shape.setPluginOption (o : PluginOptions) (name : String) (value : Shape) :
    Except ShapeError PluginOptions :=
  match name with
  | "templateFileExtension" =>
    return { o with templateFileExtension := ← optional (asText "a string") value }
  | "partialsDirectoryPath" =>
    return { o with partialsDirectoryPath := ← optional (asText "path string") value }
  | "optimizePartialRegistration" =>
    return { o with optimizePartialRegistration := ← asBool value }
  | "compileOptions" => return { o with compileOptions := ← CompileOptions.ofShape value }
  | _ => do
    ignored value
    return o

def PluginOptions.ofShape (value : Shape) : Except ShapeError PluginOptions :=
  Shape.record "struct PluginOptions" fieldNames {} Shape.setPluginOption value

end Stencil
