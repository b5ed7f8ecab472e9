import Stencil.Error
import Stencil.Files.Scan
import Stencil.Path.Lexical

/-!
# Template providers

A provider can list the templates of a directory and read one. A file system is a provider.
-/

namespace Stencil

/-- What lists and reads templates, with the current directory that paths start from, if there is
one. -/
structure TemplateProvider where
  current : Option Path
  scan : Path → Extension → Except Error (List Path)
  read : Path → Except Error String

def resolvePath (current : Option Path) (p : Path) : Except Error Path :=
  match Path.resolve current p with
  | .ok resolved => .ok resolved
  | .error .emptyPath => .error (.io .resolvePath p .invalidInput)
  | .error .noCurrentDirectory => .error (.io .resolvePath p .notFound)

namespace FileSystem

/-- The path of the current directory, if it is still there. -/
def currentPath (fs : FileSystem) : Option Path :=
  if fs.currentGone then none else some ('/' :: Path.joined fs.current)

def provider (fs : FileSystem) : TemplateProvider where
  current := fs.currentPath
  scan base ext :=
    match fs.scan base ext with
    | none => .error (.directoryNotFound base)
    | some (.error fault) => .error (.io .scanDirectory fault.path fault.fault)
    | some (.ok paths) => .ok paths
  read p :=
    match fs.readText p with
    | .ok text => .ok text
    | .error fault => .error (.io .readTemplate p fault)

end FileSystem

end Stencil
