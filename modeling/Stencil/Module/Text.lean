import Stencil.Partials.Checked

/-!
# Emitted modules

A template becomes a module that registers every partial and exports the template. A guarded
registration is skipped where the name is registered already.
-/

namespace Stencil

/-- What a module does: it registers partials in order, guarded or not, and exports a template. -/
structure Module where
  target : CheckedTemplate
  partials : PartialList
  guarded : Bool
deriving DecidableEq

namespace Module

def runtimeImport : String := "import Handlebars from 'handlebars';"

def compileCall (t : CheckedTemplate) : String :=
  "Handlebars.compile(" ++ t.sourceLiteral ++ ", " ++ t.optionsLiteral ++ ")"

def registration (guarded : Bool) (name : String) (t : CheckedTemplate) : String :=
  let call := "Handlebars.registerPartial(" ++ Json.literal name ++ ", " ++ compileCall t ++ ");"
  if guarded then
    "if (!Handlebars.partials[" ++ Json.literal name ++ "]) \x7b " ++ call ++ " \x7d"
  else call

/-- The lines of a module: the import, an empty one, the registrations, and the export. -/
def lines (m : Module) : List String :=
  [runtimeImport, ""] ++
    m.partials.entries.map (fun (name, t) => registration m.guarded name t) ++
    ["export default " ++ compileCall m.target ++ ";"]

/-- The text of a module; every line is ended. -/
def text (m : Module) : String := String.join (m.lines.map (· ++ "\n"))

end Module

end Stencil
