import Stencil.Render.Evaluate

/-!
# Rendering elements

The elements of a template one after the other, blocks and partials included. A template is rendered
with a bound on the nesting of templates; all else follows the structure of templates and data.
-/

namespace Stencil.Render

open Rendering

/-- Renders a template that an element contains or includes; one that is registered has a name. -/
abbrev Renderer := (name : Option String) → Template → Rendering Unit

variable (env : Environment) (render : Renderer)

def renderBody (body : Option Template) : Rendering Unit :=
  match body with
  | some body => render none body
  | none => pure ()

/-- Where there is nothing to run over: the second part of a block, or a failure in strict mode. -/
def renderOtherwise (raw : Option String) (inverse : Option Template) : Rendering Unit :=
  match inverse with
  | some inverse => render none inverse
  | none => if env.strict then stop (.missing raw) else pure ()

/-! ## Helpers with a block -/

/-- An item that a block runs over: its name or index in the data, what its key is called, and the
key. -/
structure Item where
  name : String
  label : String
  key : Json
  value : Json
deriving Repr, Inhabited

def itemsOf : Json → Option (List Item)
  | .array items =>
    some (items.mapIdx fun i value => ⟨toString i, "index", .ofNat i, value⟩)
  | .object members =>
    some (members.map fun (name, value) => ⟨name, "key", .string name, value⟩)
  | _ => none

/-- The block parameters of an item. The later of two with one name counts. -/
def itemParams (blockParam : Option Template.BlockParam) (value key : Binding) :
    List (String × Binding) :=
  match blockParam with
  | none => []
  | some (.single name) => [(name, value)]
  | some (.pair name second) => [(second, key), (name, value)]

/-- The block of an item: its place in the data if the collection has one, else its value. -/
def itemBlock (collection : Option DataPath) (blockParam : Option Template.BlockParam)
    (first last : Bool) (item : Item) : Block :=
  { basePath := match collection with
      | some path => path ++ [item.name]
      | none => []
    baseValue := match collection with
      | some _ => none
      | none => some item.value
    locals := [("first", .bool first), ("last", .bool last), (item.label, item.key)]
    params := itemParams blockParam
      (match collection with
        | some _ => .base
        | none => .value item.value)
      (.value item.key) }

def renderItems (collection : Option DataPath) (blockParam : Option Template.BlockParam)
    (body : Template) (first : Bool) : List Item → Rendering Unit
  | [] => pure ()
  | item :: rest => do
    inBlock (itemBlock collection blockParam first rest.isEmpty item) (render none body)
    renderItems collection blockParam body false rest

/-- Renders a body for every item of a collection. -/
def renderEach (x : Argument) (blockParam : Option Template.BlockParam) (body : Template)
    (inverse : Option Template) : Rendering Unit :=
  match itemsOf x.value with
  | some items =>
    if items.isEmpty && inverse.isSome then renderOtherwise env render x.raw inverse
    else renderItems render x.resolved.dataPath? blockParam body true items
  | none => renderOtherwise env render x.raw inverse

/-- Renders a body with a value as its base. -/
def renderWithin (x : Argument) (blockParam : Option Template.BlockParam) (body : Template)
    (inverse : Option Template) : Rendering Unit :=
  if x.value.truthy false then
    let params := match blockParam with
      | some (.single name) =>
        [(name, match x.resolved.dataPath? with
          | some _ => Binding.base
          | none => .value x.value)]
      | _ => []
    inBlock { Block.of x with params } (render none body)
  else renderOtherwise env render x.raw inverse

def condition (args : Arguments) (x : Argument) : Bool :=
  x.value.truthy (((args.hash.lookup "includeZero").bind (·.value.asBool?)).getD false)

/-- Runs a helper that writes something on its block. -/
def runBlockHelper (helper : BlockHelper) (args : Arguments)
    (blockParam : Option Template.BlockParam) (body : Template) (inverse : Option Template) :
    Rendering Unit :=
  match helper, args.params with
  | .whenTrue, x :: _ =>
    renderBody render (if condition args x then some body else inverse)
  | .whenFalse, x :: _ =>
    renderBody render (if condition args x then inverse else some body)
  | .each, x :: _ => renderEach env render x blockParam body inverse
  | .within, x :: _ => renderWithin env render x blockParam body inverse
  | .raw, _ => render none body
  | helper, _ => ofExcept (checkBare env helper args)

/-! ## Calls -/

structure Body where
  blockParam : Option Template.BlockParam
  body : Template
  inverse : Option Template

def writeValue (escaped : Bool) (value : Json) : Rendering Unit :=
  write (if escaped && env.escapes then escape (text value) else text value)

def runHelper (helper : Helper) (args : Arguments) (escaped : Bool) (block : Option Body) :
    Rendering Unit :=
  match helper with
  | .site name run => do
    writeValue env escaped (← callSite name run (args.params.map Argument.value))
  | .builtin (.value helper) => do
    writeValue env escaped (← ofExcept (helper.apply env.strict args))
  | .builtin (.block helper) =>
    match block with
    | some block => runBlockHelper env render helper args block.blockParam block.body block.inverse
    | none => ofExcept (checkBare env helper args)

def renderCall (call : Template.Call Json) (escaped : Bool) (block : Option Body) :
    Rendering Unit := do
  let name ← headName env call.head
  let args ← arguments env call.args
  match env.helperOrMissing? name block.isSome with
  | some helper => runHelper env render helper args escaped block
  | none => stop (.helperUnknown (Text.quoted name))

/-- Writes what a tag without arguments names: what a helper of that name computes, or a value. -/
def renderNamed (call : Template.Call Json) (escaped : Bool) : Rendering Unit := do
  let name ← headName env call.head
  if (env.helpers name).isSome then renderCall env render call escaped none
  else
    let x ← evaluate env call.head
    if x.resolved.isMissing then
      if env.strict then stop (.missing x.raw)
      else
        match env.helpers (Environment.missingHelper false) with
        | some helper => runHelper env render helper ⟨[], []⟩ escaped none
        | none => pure ()
    else
      writeLines (if escaped && env.escapes then escape (text x.value) else text x.value)

/-! ## Decorators and partials -/

/-- Runs a decorator. The only one defines a partial inline. -/
def runDecorator (call : Template.Call Json) (body : Option Template) : Rendering Unit := do
  let name ← headName env call.head
  let args ← arguments env call.args
  if name = "inline" then
    match args.params with
    | [] => stop .inlineUnnamed
    | x :: _ =>
      match x.value.asString?, body with
      | none, _ => stop .inlineNameNotText
      | some _, none => stop .inlineWithoutBlock
      | some name, some body =>
        changeScope fun s => { s with inlines := (name, body) :: s.inlines }
  else stop (.decoratorUnknown call.head.shown)

/-- Runs the decorators directly inside a body, before anything of it is rendered. -/
def runDecorators : Template → Rendering Unit
  | [] => pure ()
  | .decorator position call body :: rest => do
    placed position (runDecorator env call body)
    runDecorators rest
  | _ :: rest => runDecorators rest

/-- The name under which a partial includes the body of the block that it was called with. -/
def bodyName : String := "@partial-block"

/-- The template that an inclusion renders, with its name if it is registered: one defined inline or
the body of an outer inclusion, a registered one, or the body of the inclusion itself. -/
def partial? (scope : Scope) (name : String) (body : Option Template) :
    Option (Option String × Template) :=
  let inner := if name = bodyName then scope.bodies[scope.depth]? else scope.inlines.lookup name
  (inner.map (none, ·)) <|> ((env.partials name).map (some name, ·)) <|> (body.map (none, ·))

/-- The members of an object with others that take precedence; what is no object has no members. -/
def merged (value : Json) (others : List (String × Json)) : Json :=
  .object (others.foldl (fun members (name, value) => Sorted.insert name value members)
    (match value with
      | .object members => members
      | _ => []))

/-- The blocks that a partial starts with. A parameter from the data is its only base. Arguments with a
key are added to the value of that base, or of the innermost block, which then is the only one. -/
def partialBlocks (blocks : List Block) (args : Arguments) : Except Cause (List Block) := do
  let based : Option Block :=
    (args.params.head?.bind (·.resolved.dataPath?)).map fun path => { basePath := path }
  let hash := args.hash.map fun (name, x) => (name, x.value)
  if hash.isEmpty then
    return match based with
      | some block => [block]
      | none => blocks
  else
    let front := based.getD (blocks.headD {})
    let current ← fromBlock env.data front []
    return [{ front with baseValue := some (merged current.value hash) }]

def partialScope (scope : Scope) (name : String) (blocks : List Block) (body : Option Template)
    (indent : Option (List Char)) : Scope :=
  { scope with
    blocks
    depth := if name = bodyName then scope.depth + 1 else scope.depth - 1
    bodies := body.toList ++ scope.bodies
    indent }

/-- Includes a partial. It works on a copy of the scope. -/
def renderPartial (call : Template.Call Json) (indent : Option (List Char))
    (body : Option Template) : Rendering Unit := do
  let name ← headName env call.head
  let args ← arguments env call.args
  runDecorators env (body.getD [])
  let outer ← scope
  if outer.current = some name then stop .selfInclusion
  else
    match partial? env outer name body with
    | none => pure ()
    | some (registered, template) =>
      let blocks ← ofExcept (partialBlocks env outer.blocks args)
      changeScope fun _ => partialScope outer name blocks body indent
      render registered template
      changeScope fun _ => outer

/-! ## Templates -/

def renderElement : Template.Element → Rendering Unit
  | .text content => writeLines content
  | .comment => pure ()
  | .value position call escaped =>
    placed position
      (if call.args.isEmpty then renderNamed env render call escaped
      else renderCall env render call escaped none)
  | .block position call body inverse =>
    placed position (renderCall env render call true (some ⟨call.blockParam, body, inverse⟩))
  | .decorator position call body => placed position (runDecorator env call body)
  | .include position call indent body =>
    placed position (renderPartial env render call indent body)

def renderElements : Template → Rendering Unit
  | [] => pure ()
  | element :: rest => do
    renderElement env render element
    renderElements rest

/-- Renders a template, in which templates may be nested `depth` deep. -/
def renderTemplate (env : Environment) : (depth : Nat) → Renderer
  | 0 => fun _ _ => stop .tooDeep
  | depth + 1 => fun name template => inTemplate name do
    changeScope fun s => { s with current := name }
    renderElements env (renderTemplate env depth) template

/-- How deep templates may be nested while they are rendered. -/
def nestingLimit : Nat := 10000

/-- What a rendering of a whole document comes to, with the calls of helpers of the site that it made,
last one first. -/
def renderDocument (env : Environment) (document : Template) :
    Except Failure String × List SiteCall :=
  let (result, state) := (renderTemplate env nestingLimit none document).run.run {}
  (result.map fun _ => state.out, state.calls)

end Stencil.Render
