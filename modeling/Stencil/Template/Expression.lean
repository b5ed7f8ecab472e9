import Stencil.Json.Printer

/-!
# Expressions

What a tag says: paths into the data, literals, and calls of helpers, which may be nested. The type of
a literal's value is left open; it is a text when a template has been read and a data value once the
literals have been checked.
-/

namespace Stencil.Template

/-- A step of a path: into a member, to the root of the data, one level out, or the sign in front
of a local variable. -/
inductive PathStep where
  | name (text : String)
  | root
  | up
  | atSign
deriving DecidableEq, Repr, Inhabited

structure Reference where
  raw : String
  steps : List PathStep
deriving DecidableEq, Repr, Inhabited

/-- Where a local variable is read: how many levels out, and its name. -/
structure Variable where
  level : Nat
  name : String
deriving DecidableEq, Repr

namespace Reference

/-- The name after steps out of levels, with their number. -/
def nameAfterUps (level : Nat) : List PathStep → Option Variable
  | .up :: rest => nameAfterUps (level + 1) rest
  | .name text :: _ => some ⟨level, text⟩
  | _ => none

/-- The local variable that the path reads, if it reads one. What follows the name counts for
nothing. -/
def asLocal? (r : Reference) : Option Variable :=
  match r.steps with
  | .atSign :: rest => nameAfterUps 0 rest
  | _ => none

end Reference

/-- What stands for a value in a tag. A name is a helper's or partial's name in front of arguments. An
argument of a call may have a key. -/
inductive Operand (L : Type) where
  | name (text : String)
  | path (reference : Reference)
  | literal (value : L)
  | call (head : Operand L) (args : List (Option String × Operand L))
deriving Repr, Inhabited

/-- The arguments of a call in the order of the source, each with its key if it has one. -/
abbrev Arguments (L : Type) := List (Option String × Operand L)

/-- The names that a block gives to the values that it runs over. -/
inductive BlockParam where
  | single (value : String)
  | pair (value key : String)
deriving DecidableEq, Repr

/-- What a tag says: a head, its arguments, and the names that it introduces. -/
structure Call (L : Type) where
  head : Operand L
  args : Arguments L := []
  blockParam : Option BlockParam := none
deriving Repr, Inhabited

namespace Arguments

variable {L : Type}

def positional (args : Arguments L) : List (Operand L) :=
  args.filterMap fun (key, x) => if key.isNone then some x else none

/-- The arguments with a key; of two with one key the later counts. -/
def keyed (args : Arguments L) : List (String × Operand L) :=
  Sorted.ofList (args.filterMap fun (key, x) => key.map (·, x))

end Arguments

namespace Operand

variable {L M ε : Type}

def asName? : Operand L → Option String
  | .name text => some text
  | .path reference => some reference.raw
  | _ => none

/-- Every literal read by `f`, in order; the first that cannot be read is the error. -/
def mapLiterals (f : L → Except ε M) : Operand L → Except ε (Operand M)
  | .name text => .ok (.name text)
  | .path reference => .ok (.path reference)
  | .literal value => (f value).map .literal
  | .call head args => do
    let head ← mapLiterals f head
    return .call head (← all f args)
where
  all (f : L → Except ε M) : List (Option String × Operand L) → Except ε (Arguments M)
    | [] => .ok []
    | (key, x) :: xs => do
      let x ← mapLiterals f x
      return (key, x) :: (← all f xs)

end Operand

def Call.mapLiterals {L M ε : Type} (f : L → Except ε M) (call : Call L) : Except ε (Call M) := do
  let head ← call.head.mapLiterals f
  return ⟨head, ← Operand.mapLiterals.all f call.args, call.blockParam⟩

/-! ## Expressions in messages -/

namespace PathStep

def shown : PathStep → String
  | .name text => "Named(" ++ Text.quoted text ++ ")"
  | .root => "Ruled(path_root)"
  | .up => "Ruled(path_up)"
  | .atSign => "Ruled(path_local)"

end PathStep

def Reference.shown (r : Reference) : String :=
  match r.asLocal? with
  | some v =>
    "Local((" ++ toString v.level ++ ", " ++ Text.quoted v.name ++ ", " ++ Text.quoted r.raw ++ "))"
  | none =>
    "Relative(([" ++ ", ".intercalate (r.steps.map PathStep.shown) ++ "], " ++ Text.quoted r.raw ++ "))"

def Operand.shown : Operand Json → String
  | .name text => "Name(" ++ Text.quoted text ++ ")"
  | .path reference => "Path(" ++ reference.shown ++ ")"
  | .literal value => "Literal(" ++ value.shown ++ ")"
  | .call head args =>
    "Subexpression(Subexpression \x7b element: Expression(HelperTemplate \x7b name: " ++ shown head ++
      ", params: [" ++ ", ".intercalate (positional args) ++ "], hash: \x7b" ++
      ", ".intercalate ((Sorted.ofList (keyed args)).map fun (key, text) =>
        Text.quoted key ++ ": " ++ text) ++
      "\x7d, block_param: None, template: None, inverse: None, block: false \x7d) \x7d)"
where
  /-- The arguments without a key as messages show them. -/
  positional : List (Option String × Operand Json) → List String
    | [] => []
    | (none, x) :: xs => shown x :: positional xs
    | (some _, _) :: xs => positional xs
  /-- The arguments with a key, each with what messages show of it. -/
  keyed : List (Option String × Operand Json) → List (String × String)
    | [] => []
    | (none, _) :: xs => keyed xs
    | (some key, x) :: xs => (key, shown x) :: keyed xs

/-- What a message calls the operand: its text if it is a name or path. -/
def Operand.title (x : Operand Json) : String := x.asName?.getD x.shown

end Stencil.Template
