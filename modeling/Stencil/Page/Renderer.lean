import Stencil.Page.Data
import Stencil.Page.Engine
import Stencil.Partials.Registry

/-!
# Rendering pages

A page renderer keeps an engine from one page to the next. What a name was registered for first
it stays registered for; the settings are those of the present call. The names of the helpers are
kept beside the engine, those of the built-in helpers from the start.
-/

namespace Stencil

structure PageRequest where
  html : String
  helpers : List (String × Render.HelperFunction) := []
  extension : Extension := .standard
  directory : Option Path := none
  options : CompileOptions := {}

/-- A renderer of pages: an engine, and the names of the helpers that it has. -/
structure PageRenderer where
  engine : Engine := {}
  known : List String := Render.builtins.map Prod.fst

/-- What a rendering leaves: the text or an error, the renderer, registry and context after it, and
the calls of helpers of the site that it made, last one first. -/
structure PageOutcome where
  result : Except Error String
  renderer : PageRenderer
  registry : Registry
  context : Option PageData
  calls : List Render.SiteCall

namespace PageRenderer

def pageName : String := "index.html"

/-- Registers partials in order; one that is rejected ends it. -/
def registerPartials (engine : Engine) :
    List (String × CheckedTemplate) → Except Error Unit × Engine
  | [] => (.ok (), engine)
  | (name, t) :: rest =>
    match engine.registerPartial name t.source with
    | .error rejection => (.error (.templateSyntax name rejection), engine)
    | .ok engine => registerPartials engine rest

/-- With one more helper, unless its name is known. -/
def registerHelper (renderer : PageRenderer) (name : String) (run : Render.HelperFunction) :
    PageRenderer :=
  if renderer.known.contains name then renderer
  else
    { engine := renderer.engine.registerHelper name run
      known := name :: renderer.known }

def registerHelpers (renderer : PageRenderer) (helpers : List (String × Render.HelperFunction)) :
    PageRenderer :=
  helpers.foldl (fun renderer (name, run) => renderer.registerHelper name run) renderer

/-- Renders a page: its partials are looked up and registered, then the helpers are registered and
the data is produced, then the page is checked and rendered. The first step that fails ends it. -/
def render (renderer : PageRenderer) (registry : Registry) (provider : TemplateProvider)
    (context : Option PageData) (request : PageRequest) : PageOutcome :=
  match registry.get provider request.extension request.directory request.options with
  | (.error e, registry) => ⟨.error e, renderer, registry, context, []⟩
  | (.ok partials, registry) =>
    match registerPartials (renderer.engine.configure request.options) partials.entries with
    | (.error e, engine) => ⟨.error e, { renderer with engine }, registry, context, []⟩
    | (.ok (), engine) =>
      let renderer := { renderer with engine }.registerHelpers request.helpers
      match PageData.resolve? context with
      | (.error cause, context) =>
        ⟨.error (.contextResolution cause), renderer, registry, context, []⟩
      | (.ok data, context) =>
        match registry.check pageName request.html request.options with
        | (.error e, registry) => ⟨.error e, renderer, registry, context, []⟩
        | (.ok page, registry) =>
          let rendered := renderer.engine.render page.source data
          ⟨rendered.result.mapError .render, { renderer with engine := rendered.engine }, registry,
            context, rendered.calls⟩

def hasPartial (renderer : PageRenderer) (name : String) : Bool := renderer.engine.hasPartial name

/-- Whether there is a helper of this name, a built-in one included. -/
def hasHelper (renderer : PageRenderer) (name : String) : Bool := renderer.known.contains name

def helperNames (renderer : PageRenderer) : List String :=
  (Sorted.ofList (renderer.known.map (·, ()))).map Prod.fst

def shown (renderer : PageRenderer) : String :=
  "DocumentRenderer \x7b registered_helpers: [" ++
    ", ".intercalate (renderer.helperNames.map Text.quoted) ++ "], .. \x7d"

end PageRenderer

end Stencil
