import Stencil.Toml.Writer

/-!
# Options in configuration files

Plugin options are read from a configuration file and written as one. A file fails to be read if it is
not well formed, or if it does not hold options. The format promises integers of 64 bits with a sign
and doubles. A number beyond these is harmless where nothing looks at it; but a file that does not hold
options counts as not well formed if there is such a number anywhere in it.
-/

namespace Stencil

inductive ConfigError where
  | malformed
  | shape (error : ShapeError)
deriving DecidableEq, Repr

namespace CompileOptions

def switches (o : CompileOptions) : List (String × Option Bool) := [
  ("data", o.data), ("compat", o.compat), ("knownHelpersOnly", o.knownHelpersOnly),
  ("noEscape", o.noEscape), ("strict", o.strict), ("assumeObjects", o.assumeObjects),
  ("preventIndent", o.preventIndent), ("ignoreStandalone", o.ignoreStandalone),
  ("explicitPartialContext", o.explicitPartialContext)]

def switchLines (o : CompileOptions) : List Char :=
  o.switches.flatMap fun (name, value) =>
    match value with
    | some b => Toml.entryLine name.toList (Toml.writeBool b)
    | none => []

/-- The table of known helpers, if they are set. -/
def knownHelperLines (o : CompileOptions) : List Char :=
  match o.knownHelpers with
  | none => []
  | some known =>
    "\n[compileOptions.knownHelpers]\n".toList ++
      known.entries.flatMap fun (name, value) =>
        Toml.entryLine name.toList (Toml.writeBool value)

/-- The tables of the options. That of the switches is left out where it would be empty beside that of
the known helpers. -/
def tomlLines (o : CompileOptions) : List Char :=
  (if o.switchLines.isEmpty && o.knownHelpers.isSome then []
    else "\n[compileOptions]\n".toList ++ o.switchLines) ++ o.knownHelperLines

end CompileOptions

namespace PluginOptions

def textLine (name : String) (value : Option String) : List Char :=
  match value with
  | some s => Toml.entryLine name.toList (Toml.writeText s.toList)
  | none => []

def toToml (o : PluginOptions) : String :=
  String.ofList (textLine "templateFileExtension" o.templateFileExtension ++
    textLine "partialsDirectoryPath" o.partialsDirectoryPath ++
    Toml.entryLine "optimizePartialRegistration".toList
      (Toml.writeBool o.optimizePartialRegistration) ++
    o.compileOptions.tomlLines)

def ofToml (source : String) : Except ConfigError PluginOptions :=
  match Toml.read? source with
  | none => .error .malformed
  | some value =>
    (PluginOptions.ofShape value.shape).mapError fun e =>
      if value.isStandard then .shape e else .malformed

end PluginOptions

end Stencil
