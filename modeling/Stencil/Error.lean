import Stencil.Files.Tree
import Stencil.Render.Failure
import Stencil.Template.Rejection

/-!
# Errors

What can go wrong between a template on disk and the text or module made from it, and the messages.
-/

namespace Stencil

inductive FileOperation where
  | scanDirectory
  | readTemplate
  | resolvePath
deriving DecidableEq, Repr

/-- Why a page was not rendered: its text is no template, or rendering it failed. -/
inductive RenderFault where
  | rejected (rejection : Template.Rejection)
  | failed (failure : Render.Failure)
deriving Repr

inductive Error where
  | directoryNotFound (path : Path)
  | templateSyntax (template : String) (rejection : Template.Rejection)
  | invalidPath (path base : Path)
  | contextResolution (cause : String)
  | render (fault : RenderFault)
  | io (operation : FileOperation) (path : Path) (fault : Files.Fault)
deriving Repr

def FileOperation.words : FileOperation → String
  | scanDirectory => "scan directory"
  | readTemplate => "read template"
  | resolvePath => "resolve absolute path"

def RenderFault.message : RenderFault → String
  | rejected rejection => rejection.headline
  | failed failure => failure.message

/-- The text of an error. That of a rejected template is the diagnostic without the source. -/
def Error.message : Error → String
  | directoryNotFound path => "Partials directory not found: " ++ String.ofList path
  | templateSyntax template rejection =>
    "Template syntax error in '" ++ template ++ "': " ++ rejection.diagnostic
  | invalidPath path base =>
    "Path '" ++ String.ofList path ++ "' is not inside '" ++ String.ofList base ++ "'"
  | contextResolution _ => "Failed to resolve template context"
  | render fault => "Template rendering failed: " ++ fault.message
  | io operation path _ =>
    "File system error while trying to " ++ operation.words ++ ": " ++ String.ofList path

end Stencil
