import Stencil.Options.Compile

/-!
# Plugin options

What a site configures: the template extension, the partials directory, whether registrations of
partials are guarded, and the compile options.
-/

namespace Stencil

structure PluginOptions where
  templateFileExtension : Option String := none
  partialsDirectoryPath : Option String := none
  optimizePartialRegistration : Bool := false
  compileOptions : CompileOptions := {}
deriving DecidableEq, Inhabited

namespace PluginOptions

def fieldNames : List String :=
  ["templateFileExtension", "partialsDirectoryPath", "optimizePartialRegistration", "compileOptions"]

def text (name : String) (value : Option String) : List (String × Json) :=
  match value with
  | some s => [(name, .string s)]
  | none => []

/-- The options as a value; a text that is not set is left out. -/
def toJson (o : PluginOptions) : Json :=
  Json.ofMembers
    (text "templateFileExtension" o.templateFileExtension ++
      text "partialsDirectoryPath" o.partialsDirectoryPath ++
      [("optimizePartialRegistration", .bool o.optimizePartialRegistration),
        ("compileOptions", o.compileOptions.toJson)])

end PluginOptions

end Stencil
