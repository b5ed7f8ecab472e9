import Stencil.Partials.Checked
import Stencil.Partials.Provider

/-!
# Tools and the work that they do

To load partials is to scan a directory, read its files and check their texts. The loader knows these
three only as `LoadTools`, whose uses are actions of a monad that it does not know: it can neither use
a tool in passing nor take a use back. With the tools of a provider in the monad that counts
(`TemplateProvider.counted`), what was counted is then what was used.
-/

namespace Stencil

/-- How often a directory was scanned, a file read, and a template checked. -/
structure Work where
  scans : Nat := 0
  reads : Nat := 0
  checks : Nat := 0
deriving DecidableEq, Repr

def Work.plus (a b : Work) : Work := ⟨a.scans + b.scans, a.reads + b.reads, a.checks + b.checks⟩

/-- An action that may fail, with its work counted also where it does. -/
abbrev Counted (α : Type) := ExceptT Error (StateM Work) α

/-- An answer that took this much work. The only actions that count are made here. -/
def Counted.answer {α : Type} (answer : Except Error α) (work : Work) : Counted α := ExceptT.mk do
  modify fun before : Work => before.plus work
  return answer

/-- What the loader uses, each use an action of the monad. -/
structure LoadTools (m : Type → Type) where
  scan : Path → Extension → ExceptT Error m (List Path)
  read : Path → ExceptT Error m String
  check : String → String → CompileOptions → ExceptT Error m CheckedTemplate

def countedCheck (template source : String) (options : CompileOptions) : Counted CheckedTemplate :=
  Counted.answer (checkTemplate template source options) ⟨0, 0, 1⟩

/-- The tools of a provider, with every use counted, whatever it answers. -/
def TemplateProvider.counted (provider : TemplateProvider) : LoadTools (StateM Work) where
  scan base ext := Counted.answer (provider.scan base ext) ⟨1, 0, 0⟩
  read p := Counted.answer (provider.read p) ⟨0, 1, 0⟩
  check := countedCheck

namespace TemplateProvider

variable (provider : TemplateProvider)

@[simp] theorem counted_scan (base : Path) (ext : Extension) :
    provider.counted.scan base ext = Counted.answer (provider.scan base ext) ⟨1, 0, 0⟩ := rfl

@[simp] theorem counted_read (p : Path) :
    provider.counted.read p = Counted.answer (provider.read p) ⟨0, 1, 0⟩ := rfl

@[simp] theorem counted_check (template source : String) (options : CompileOptions) :
    provider.counted.check template source options =
      Counted.answer (checkTemplate template source options) ⟨0, 0, 1⟩ := rfl

end TemplateProvider

end Stencil
