import Stencil.Partials.Registry

/-!
# Reacting to changes

A change at or below the partials directory makes every cached list of partials stale: the registry is
invalidated, and the host is told to forget its modules and to reload.
-/

namespace Stencil

inductive HostNotice where
  | forgetModules
  | reload
deriving DecidableEq, Repr

inductive ChangeOutcome where
  | ignored
  | reloaded
deriving DecidableEq, Repr

/-- A reaction: the outcome, the registry after it, and what the host was told, in order. -/
structure Reaction where
  outcome : ChangeOutcome
  registry : Registry
  notices : List HostNotice
deriving DecidableEq

/-- Reacts to changes at or below a directory, if there is one. -/
structure Watcher where
  directory : Option Path
deriving DecidableEq

/-- Reacts to a change of a file. A path that cannot be resolved is compared as it is. -/
def Watcher.react (watcher : Watcher) (current : Option Path) (registry : Registry)
    (changed : Path) : Reaction :=
  match watcher.directory with
  | none => ⟨.ignored, registry, []⟩
  | some dir =>
    if Path.within ((Path.resolve current changed).toOption.getD changed) dir then
      ⟨.reloaded, registry.invalidate, [.forgetModules, .reload]⟩
    else ⟨.ignored, registry, []⟩

end Stencil
