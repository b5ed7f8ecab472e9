import Stencil.Error
import Stencil.Options.Compile
import Stencil.Render.Element
import Stencil.Template.Check
import Stencil.Template.Layout

/-!
# The engine

An engine keeps partials and helpers by name and renders templates with them. A partial is parsed with
the settings in force when it is registered; strictness and escaping are those in force when a page is
rendered.
-/

namespace Stencil

structure RegisteredPartial where
  name : String
  source : String
  template : Template
deriving Inhabited

/-- A helper that an engine knows, and how often it has been called. -/
structure RegisteredHelper where
  name : String
  helper : Render.Helper
  calls : Nat := 0

/-- The helper as a rendering calls it: its calls are counted on from the earlier ones. -/
def RegisteredHelper.counted (registered : RegisteredHelper) : Render.Helper :=
  match registered.helper with
  | .site name run => .site name fun call => run (registered.calls + call)
  | .builtin helper => .builtin helper

/-- Partials, helpers and settings. A new engine has the built-in helpers. -/
structure Engine where
  partials : List RegisteredPartial := []
  helpers : List RegisteredHelper :=
    Render.builtins.map fun (name, helper) => { name, helper := .builtin helper }
  strict : Bool := false
  escapes : Bool := true
  preventIndent : Bool := false

namespace Engine

/-- What rendering a source comes to: the text or a fault, the engine after it, and the calls of
helpers of the site, last one first. -/
structure Rendered where
  result : Except RenderFault String
  engine : Engine
  calls : List Render.SiteCall := []

def hasPartial (engine : Engine) (name : String) : Bool :=
  engine.partials.any (·.name == name)

def configure (engine : Engine) (options : CompileOptions) : Engine :=
  { engine with
    strict := options.strict.getD false
    escapes := !options.noEscape.getD false
    preventIndent := options.preventIndent.getD false }

/-- With one more partial, unless its name is taken. -/
def registerPartial (engine : Engine) (name source : String) :
    Except Template.Rejection Engine :=
  if engine.hasPartial name then .ok engine
  else do
    let document ← Template.Document.ofSource source
    let added : RegisteredPartial := ⟨name, source, document.layout engine.preventIndent⟩
    return { engine with partials := engine.partials ++ [added] }

/-- With a helper of the site under a name, in place of the helper that had the name. -/
def registerHelper (engine : Engine) (name : String) (run : Render.HelperFunction) : Engine :=
  { engine with
    helpers := { name, helper := .site name run } :: engine.helpers.filter (·.name != name) }

def environment (engine : Engine) (data : Json) : Render.Environment where
  data
  partials name := (engine.partials.find? (·.name == name)).map RegisteredPartial.template
  helpers name := (engine.helpers.find? (·.name == name)).map RegisteredHelper.counted
  strict := engine.strict
  escapes := engine.escapes

def countCalls (engine : Engine) (calls : List String) : Engine :=
  { engine with
    helpers := engine.helpers.map fun helper =>
      { helper with calls := helper.calls + calls.count helper.name } }

def render (engine : Engine) (source : String) (data : Json) : Rendered :=
  match Template.Document.ofSource source with
  | .error rejection => { result := .error (.rejected rejection), engine }
  | .ok document =>
    let (result, calls) :=
      Render.renderDocument (engine.environment data) (document.layout engine.preventIndent)
    { result := result.mapError .failed, engine := engine.countCalls (calls.map (·.name)), calls }

end Engine

end Stencil
