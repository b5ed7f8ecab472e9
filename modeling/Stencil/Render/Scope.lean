import Stencil.Render.Failure
import Stencil.Template.Piece

/-!
# Scopes

What a path means depends on the blocks around it. A block has a base, which is a place in the data or
a value of its own, local variables, and block parameters. `lookup` reads a path among blocks,
innermost first; it fails only where an array is read by something that is no index.
-/

namespace Stencil.Render

/-- What a block parameter stands for: the place of its block in the data, or a value. -/
inductive Binding where
  | base
  | value (value : Json)
deriving Repr, Inhabited

/-- A block that paths are read in. A base value goes before the base path. -/
structure Block where
  basePath : DataPath := []
  baseValue : Option Json := none
  locals : List (String × Json) := []
  params : List (String × Binding) := []
deriving Repr, Inhabited

/-- A block whose base is what an operand stands for: its place in the data, or its value. -/
def Block.of (x : Argument) : Block :=
  match x.resolved.dataPath? with
  | some path => { basePath := path }
  | none => { baseValue := some x.value }

/-! ## Reading paths -/

def index? (name : String) : Option Nat :=
  let digits := match name.toList with
    | '+' :: rest => rest
    | cs => cs
  if digits.isEmpty || !digits.all Char.isDigit then none
  else
    let n := digits.foldl (fun n c => 10 * n + (c.toNat - '0'.toNat)) 0
    if n < Word.count 64 then some n else none

def child (name : String) : Json → Except Cause (Option Json)
  | .array items =>
    match index? name with
    | some i => .ok items[i]?
    | none => .error .textIndex
  | .object members => .ok (members.lookup name)
  | _ => .ok none

/-- Names further and further into a value; a missing one leaves nothing. -/
def descend : Json → List String → Except Cause (Option Json)
  | value, [] => .ok (some value)
  | value, name :: rest => do
    match ← child name value with
    | some next => descend next rest
    | none => return none

def fromData (data : Json) (path : DataPath) : Except Cause Resolved := do
  return match ← descend data path with
    | some value => .data value path
    | none => .missing

/-- The value at names inside a value that is no place in the data. -/
def fromValue (value : Json) (names : List String) : Except Cause Resolved := do
  return match ← descend value names with
    | some value => .computed value
    | none => .missing

def names (steps : List Template.PathStep) : List String :=
  steps.filterMap fun
    | .name text => some text
    | _ => none

def fromBlock (data : Json) (block : Block) (names : List String) : Except Cause Resolved :=
  match block.baseValue with
  | some value => fromValue value names
  | none => fromData data (block.basePath ++ names)

/-- How a path starts: how many levels out, then the first name, or the root. -/
structure Lead where
  ups : Nat := 0
  fromRoot : Bool := false
  first : Option String := none
deriving DecidableEq, Repr

/-- The start of a path, up to the first step that is no step out. -/
def lead (ups : Nat) : List Template.PathStep → Lead
  | .up :: rest => lead (ups + 1) rest
  | .root :: _ => { ups, fromRoot := true }
  | .name text :: _ => { ups, first := some text }
  | _ => { ups }

/-- The innermost block that has a parameter of this name, with what it stands for. -/
def binding? (blocks : List Block) (name : String) : Option (Block × Binding) :=
  blocks.findSome? fun block => (block.params.lookup name).map (block, ·)

/-- Reads a path among blocks. A block parameter is read in place of the first step of the path,
whatever that is. -/
def lookupRelative (data : Json) (blocks : List Block) (steps : List Template.PathStep) :
    Except Cause Resolved :=
  let start := lead 0 steps
  match start.first.bind (binding? blocks) with
  | some (_, .value value) => fromValue value (names steps.tail)
  | some (block, .base) => fromData data (block.basePath ++ names steps.tail)
  | none =>
    let front := blocks.headD {}
    if 0 < start.ups then fromBlock data (blocks[start.ups]?.getD front) (names steps)
    else if start.fromRoot then fromData data (names steps)
    else fromBlock data front (names steps)

def lookup (data : Json) (blocks : List Block) (reference : Template.Reference) :
    Except Cause Resolved :=
  match reference.asLocal? with
  | some v =>
    .ok (match (blocks[v.level]?).bind (·.locals.lookup v.name) with
      | some value => .computed value
      | none => .missing)
  | none => lookupRelative data blocks reference.steps

/-! ## The state of a partial -/

/-- What is in force while a template is rendered: the blocks, the partials defined inline, the bodies
of the blocks that include partials with the number of them passed over, the name of the current
template, and the indent. Partials work on a copy. -/
structure Scope where
  blocks : List Block := [{}]
  inlines : List (String × Template) := []
  bodies : List Template := []
  depth : Nat := 0
  current : Option String := none
  indent : Option (List Char) := none
deriving Repr, Inhabited

end Stencil.Render
