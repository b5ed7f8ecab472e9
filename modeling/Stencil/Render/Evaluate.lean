import Stencil.Render.Builtin
import Stencil.Render.Scope

/-!
# Evaluation

Rendering writes to an output and calls helpers; a failure ends it, but the calls made up to then stay
known. Here are the steps that need no templates: operands, arguments, and helpers that compute a
value.
-/

namespace Stencil.Render

/-- A helper of the site: from the number of the call, counted from one, and the parameters to a
value, or to the causes of a failure, innermost first. -/
abbrev HelperFunction := (call : Nat) → (params : List Json) → Except (List String) Json

/-- A helper that is registered: one of the site, with its name, or a built-in one. -/
inductive Helper where
  | site (name : String) (run : HelperFunction)
  | builtin (helper : Builtin)

/-- What a rendering can read and does not change: the data, the registered partials and helpers, and
the settings. A helper of the site is given the number of its calls in this rendering. -/
structure Environment where
  data : Json
  partials : String → Option Template
  helpers : String → Option Helper
  strict : Bool
  escapes : Bool

/-- A call of a helper of the site: the name that it is registered with, its parameters, and what it
answered. -/
structure SiteCall where
  name : String
  params : List Json
  answer : Except (List String) Json
deriving Repr, Inhabited

/-- What a rendering changes: the scope, the output, and the calls of helpers of the site, last one
first. -/
structure State where
  scope : Scope := {}
  out : String := ""
  calls : List SiteCall := []
deriving Repr, Inhabited

abbrev Rendering := ExceptT Failure (StateM State)

namespace Environment

def missingHelper (block : Bool) : String :=
  if block then "blockHelperMissing" else "helperMissing"

def helperOrMissing? (env : Environment) (name : String) (block : Bool) : Option Helper :=
  env.helpers name <|> env.helpers (missingHelper block)

end Environment

namespace Rendering

def stop {α : Type} (cause : Cause) : Rendering α := throw { cause }

def ofExcept {α : Type} : Except Cause α → Rendering α
  | .ok x => pure x
  | .error cause => stop cause

def write (cs : List Char) : Rendering Unit :=
  modify fun s => { s with out := s.out ++ String.ofList cs }

/-- Writes text with the indent in force. -/
def writeLines (cs : List Char) : Rendering Unit :=
  modify fun s =>
    { s with out := s.out ++ String.ofList (match s.scope.indent with
      | some indent => indented indent cs
      | none => cs) }

def scope : Rendering Scope := modifyGet fun s => (s.scope, s)

def changeScope (f : Scope → Scope) : Rendering Unit :=
  modify fun s => { s with scope := f s.scope }

def placed {α : Type} (position : Text.Position) (step : Rendering α) : Rendering α :=
  tryCatch step fun failure => throw (failure.placed position)

def inTemplate {α : Type} (name : Option String) (step : Rendering α) : Rendering α :=
  tryCatch step fun failure => throw (failure.within name)

def inBlock (block : Block) (step : Rendering Unit) : Rendering Unit := do
  changeScope fun s => { s with blocks := block :: s.blocks }
  step
  changeScope fun s => { s with blocks := s.blocks.tail }

def callSite (name : String) (run : HelperFunction) (params : List Json) : Rendering Json := do
  let answer ← modifyGet fun s =>
    let answer := run (s.calls.countP (·.name == name) + 1) params
    (answer, { s with calls := ⟨name, params, answer⟩ :: s.calls })
  ofExcept (answer.mapError (.helperFailed name))

end Rendering

open Rendering

variable (env : Environment)

def readPath (reference : Template.Reference) : Rendering Resolved := do
  ofExcept (lookup env.data (← scope).blocks reference)

/-- What a helper that writes does without a block: it writes nothing, but it may fail. -/
def checkBare (helper : BlockHelper) (args : Arguments) : Except Cause Unit :=
  match helper, args.params with
  | .whenTrue, [] => .error (.paramMissing "if")
  | .whenFalse, [] => .error (.paramMissing "if")
  | .each, [] => .error (.paramMissing "each")
  | .within, [] => .error (.paramMissing "with")
  | .within, x :: _ =>
    if env.strict && !x.value.truthy false then .error (.missing x.raw) else .ok ()
  | .log, _ =>
    let level := ((args.hash.lookup "level").bind (·.value.asString?)).getD "info"
    if ["error", "warn", "info", "debug", "trace"].contains level.toLower then .ok ()
    else .error (.logLevelUnknown level)
  | _, _ => .ok ()

/-- The value of a call in parentheses. A helper that writes something writes nothing here. -/
def callForValue (helper : Helper) (args : Arguments) : Rendering Json :=
  match helper with
  | .site name run => callSite name run (args.params.map Argument.value)
  | .builtin (.value helper) => ofExcept (helper.apply env.strict args)
  | .builtin (.block helper) => do
    ofExcept (checkBare env helper args)
    return .string ""

def evaluate : Template.Operand Json → Rendering Argument
  | .name text => return ⟨some text, .missing⟩
  | .path reference => return ⟨some reference.raw, ← readPath env reference⟩
  | .literal value => return ⟨none, .literal value⟩
  | .call head args => do
    let name ← match head.asName? with
      | some name => pure name
      | none => pure (String.ofList (text (← evaluate head).value))
    let params ← positional args
    let hash ← keyed args
    match env.helperOrMissing? name false with
    | some helper => return ⟨none, .computed (← callForValue env helper ⟨params, hash⟩)⟩
    | none => stop (.helperUnknown head.shown)
where
  positional : List (Option String × Template.Operand Json) → Rendering (List Argument)
    | [] => return []
    | (some _, _) :: rest => positional rest
    | (none, x) :: rest => do
      let x ← evaluate x
      return x :: (← positional rest)
  /-- The arguments with a key; of two with one key only the later is evaluated. -/
  keyed : List (Option String × Template.Operand Json) → Rendering (List (String × Argument))
    | [] => return []
    | (none, _) :: rest => keyed rest
    | (some key, x) :: rest => do
      if rest.any (·.1 == some key) then keyed rest
      else
        let x ← evaluate x
        return (key, x) :: (← keyed rest)

def arguments (args : Template.Arguments Json) : Rendering Arguments := do
  let params ← evaluate.positional env args
  return ⟨params, ← evaluate.keyed env args⟩

/-- What the head of a call names: its text, or the text of what it computes. -/
def headName (head : Template.Operand Json) : Rendering String :=
  match head.asName? with
  | some name => pure name
  | none => do return String.ofList (text (← evaluate env head).value)

end Stencil.Render
