import Stencil.Page.Renderer
import Stencil.Module.Text
import Stencil.Options.Plugin
import Stencil.Plugin.Watcher

/-!
# The plugin

What a host talks to: it transforms templates into modules, renders the entry page, and reacts to
changed files. It has a registry and a renderer of its own.
-/

namespace Stencil

/-- What the entry page is rendered with: data and helpers. -/
structure PageOptions where
  context : Option PageData := none
  helpers : List (String × Render.HelperFunction) := []

def PageOptions.shown (o : PageOptions) : String :=
  let context := match o.context with
    | some context => "Some(" ++ context.shown ++ ")"
    | none => "None"
  "TransformIndexHtmlOptions \x7b context: " ++ context ++ ", helpers: [" ++
    ", ".intercalate (o.helpers.map fun (name, _) => Text.quoted name) ++ "] \x7d"

structure Plugin where
  extension : Extension
  directory : Option Path
  guarded : Bool
  options : CompileOptions
  page : PageOptions
  registry : Registry := {}
  renderer : PageRenderer := {}

namespace Plugin

def name : String := "vite-plugin-handlebars-import"

/-- A plugin with these options. An empty partials directory is none. -/
def create (current : Option Path) (options : PluginOptions) (page : PageOptions) :
    Except Error Plugin := do
  let directory ← match (options.partialsDirectoryPath.map String.toList).filter (· ≠ []) with
    | some dir => some <$> resolvePath current dir
    | none => pure none
  return {
    extension := .configured options.templateFileExtension
    directory
    guarded := options.optimizePartialRegistration
    options := options.compileOptions
    page }

/-- The module of a template, none if the file is no template. The template is checked before its
partials are looked up. -/
def transform (plugin : Plugin) (provider : TemplateProvider) (id code : String) :
    Except Error (Option String) × Plugin :=
  if !plugin.extension.matches? id.toList then (.ok none, plugin)
  else
    match plugin.registry.check id code plugin.options with
    | (.error e, registry) => (.error e, { plugin with registry })
    | (.ok target, registry) =>
      match registry.get provider plugin.extension plugin.directory plugin.options with
      | (.error e, registry) => (.error e, { plugin with registry })
      | (.ok partials, registry) =>
        (.ok (some (Module.text ⟨target, partials, plugin.guarded⟩)), { plugin with registry })

def pageRequest (plugin : Plugin) (html : String) : PageRequest where
  html
  helpers := plugin.page.helpers
  extension := plugin.extension
  directory := plugin.directory
  options := plugin.options

def renderPage (plugin : Plugin) (provider : TemplateProvider) (html : String) :
    Except Error String × Plugin :=
  let outcome := plugin.renderer.render plugin.registry provider plugin.page.context
    (plugin.pageRequest html)
  (outcome.result,
    { plugin with
      registry := outcome.registry
      renderer := outcome.renderer
      page := { plugin.page with context := outcome.context } })

def fileChanged (plugin : Plugin) (current : Option Path) (changed : Path) :
    ChangeOutcome × List HostNotice × Plugin :=
  let reaction := Watcher.react ⟨plugin.directory⟩ current plugin.registry changed
  (reaction.outcome, reaction.notices, { plugin with registry := reaction.registry })

end Plugin

end Stencil
