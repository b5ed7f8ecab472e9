import Stencil.Partials.Cache
import Stencil.Partials.Naming
import Stencil.Partials.Tools

/-!
# The partial registry

`Registry.get` answers which partials there are for a configuration. It loads them once and keeps the
answer until the registry is invalidated; a load that fails leaves nothing behind but a counted miss.
What is loaded and looked up is told with any tools and in any monad (`load`, `lookUp`); the registry
runs this with tools that count the work.
-/

namespace Stencil

structure Registry where
  cache : Cache := {}
  work : Work := {}
deriving DecidableEq

namespace Registry

section Loading

variable {m : Type → Type} [Monad m] (tools : LoadTools m)

/-- The partial in a file: its name, read and checked in this order. -/
def loadFile (base : Path) (ext : Extension) (options : CompileOptions) (file : Path) :
    ExceptT Error m (String × CheckedTemplate) :=
  match nameOfPartial? base file ext with
  | none => throw (.invalidPath file base)
  | some name => do
    let text ← tools.read file
    return (name, ← tools.check (String.ofList file) text options)

/-- The partials of a directory, without the cache; the first file that fails ends it. -/
def load (base : Path) (ext : Extension) (options : CompileOptions) : ExceptT Error m PartialList := do
  let files ← tools.scan base ext
  return ⟨← files.mapM (loadFile tools base ext options)⟩

/-- The partials of a configuration, from the cache if they are there; what is loaded is kept. -/
def lookUp (cache : Cache) (key : Configuration) : m (Except Error PartialList × Cache) :=
  match cache.get key with
  | (some partials, cache) => pure (.ok partials, cache)
  | (none, cache) => do
    let answer ← (load tools key.directory key.extension key.options).run
    return (answer,
      match answer with
      | .error _ => cache
      | .ok partials => cache.insert key partials)

end Loading

/-- Does what is counted, on top of the work done before. -/
def perform {α : Type} (registry : Registry) (action : StateM Work α) : α × Registry :=
  let (answer, work) := (action.run registry.work).run
  (answer, { registry with work })

def check (registry : Registry) (template source : String) (options : CompileOptions) :
    Except Error CheckedTemplate × Registry :=
  registry.perform (countedCheck template source options)

def getResolved (registry : Registry) (provider : TemplateProvider) (ext : Extension) (base : Path)
    (options : CompileOptions) : Except Error PartialList × Registry :=
  let ((answer, cache), registry) :=
    registry.perform (lookUp provider.counted registry.cache ⟨ext, base, options⟩)
  (answer, { registry with cache })

/-- The partials of a configuration. Without a directory there are none, and the cache is left
alone. -/
def get (registry : Registry) (provider : TemplateProvider) (ext : Extension) (dir : Option Path)
    (options : CompileOptions) : Except Error PartialList × Registry :=
  match dir with
  | none => (.ok {}, registry)
  | some dir =>
    match resolvePath provider.current dir with
    | .error e => (.error e, registry)
    | .ok base => registry.getResolved provider ext base options

/-- Without any cached list; the counts of lookups start again. -/
def invalidate (registry : Registry) : Registry := { registry with cache := {} }

def counts (registry : Registry) : CacheCounts := registry.cache.counts

end Registry

end Stencil
