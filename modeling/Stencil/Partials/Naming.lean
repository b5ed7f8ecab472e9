import Stencil.Path.Below
import Stencil.Path.Storage

/-!
# Template extensions and partial names

A file is a template if its name ends with the configured extension. An extension starts with a dot,
which is added if it was left out. A partial is called by the path of its file below the partials
directory, in storage form and without one extension.
-/

namespace Stencil

structure Extension where
  text : List Char
deriving DecidableEq, Repr, Inhabited

namespace Extension

def standard : Extension := ⟨['.', 'h', 'b', 's']⟩

/-- The extension that is configured, with its dot; an empty one is the dot alone. -/
def configured : Option String → Extension
  | none => standard
  | some text =>
    if text.toList.head? = some '.' then ⟨text.toList⟩ else ⟨'.' :: text.toList⟩

def matches? (ext : Extension) (name : List Char) : Bool := ext.text.isSuffixOf name

def asString (ext : Extension) : String := String.ofList ext.text

def strip (ext : Extension) (name : List Char) : List Char :=
  if ext.matches? name then name.take (name.length - ext.text.length) else name

theorem matches?_iff {ext : Extension} {name : List Char} :
    ext.matches? name = true ↔ ext.text <:+ name := by
  simp [matches?]

/-- One extension is taken away, whatever stands before it: the name may end with the same extension
again. -/
theorem strip_append (ext : Extension) (stem : List Char) : ext.strip (stem ++ ext.text) = stem := by
  simp [strip, matches?]

end Extension

/-- The name of the partial in `file`, if the file lies below `base`. -/
def nameOfPartial? (base file : Path) (ext : Extension) : Option String :=
  (Path.below? base file).map fun rest => String.ofList (ext.strip (Path.storage rest))

end Stencil
