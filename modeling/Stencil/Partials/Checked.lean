import Stencil.Error
import Stencil.Options.Compile
import Stencil.Template.Check

/-!
# Checked templates and lists of them

A template is compiled where its module is loaded; here it is only checked. What is kept is the source
with the options that it will be compiled with. A list of partials has them by name, in the order in
which they are registered.

What such a list, or another list of named things, finds under a name is the first of that name
(`isSome_lookup_iff`). If the names are different, everything in it is found under its own
(`PartialList.get?_of_mem`).
-/

namespace Stencil

structure CheckedTemplate where
  source : String
  options : CompileOptions
deriving DecidableEq, Inhabited

namespace CheckedTemplate

def sourceLiteral (t : CheckedTemplate) : String := Json.literal t.source

def optionsLiteral (t : CheckedTemplate) : String := t.options.literal

end CheckedTemplate

/-- Checks a template, which is called `template` in the error. The options do not take part. -/
def checkTemplate (template source : String) (options : CompileOptions) :
    Except Error CheckedTemplate :=
  match Template.Document.ofSource source with
  | .ok _ => .ok ⟨source, options⟩
  | .error rejection => .error (.templateSyntax template rejection)

/-! ## Lists of partials -/

structure PartialList where
  entries : List (String × CheckedTemplate) := []
deriving DecidableEq, Inhabited

namespace PartialList

def get? (partials : PartialList) (name : String) : Option CheckedTemplate := partials.entries.lookup name

def names (partials : PartialList) : List String := partials.entries.map Prod.fst

def size (partials : PartialList) : Nat := partials.entries.length

def isEmpty (partials : PartialList) : Bool := partials.entries.isEmpty

end PartialList

/-! ## Looking names up -/

section Lookup

variable {κ α : Type} [BEq κ] [LawfulBEq κ] {entries : List (κ × α)} {name : κ}

/-- Just the names of the list are found. -/
theorem isSome_lookup_iff :
    (entries.lookup name).isSome = true ↔ name ∈ entries.map Prod.fst := by
  rw [List.lookup_isSome_iff, List.mem_map]
  simp only [beq_iff_eq]
  exact exists_congr fun entry => and_congr_right fun _ => eq_comm

/-- A name that is not in the list is not found. -/
theorem lookup_eq_none_iff_not_mem : entries.lookup name = none ↔ name ∉ entries.map Prod.fst := by
  rw [← Option.not_isSome_iff_eq_none, isSome_lookup_iff]

end Lookup

namespace PartialList

/-- The names of a list are those under which it finds something. -/
theorem mem_names_iff (partials : PartialList) (name : String) :
    name ∈ partials.names ↔ (partials.get? name).isSome = true := isSome_lookup_iff.symm

/-- The template of a name that occurs once is what the name is looked up as. -/
theorem get?_of_mem {partials : PartialList} (hnodup : partials.names.Nodup)
    {entry : String × CheckedTemplate} (h : entry ∈ partials.entries) :
    partials.get? entry.1 = some entry.2 := by
  obtain ⟨entries⟩ := partials
  unfold get? names at *
  induction entries with
  | nil => cases h
  | cons first rest ih =>
    obtain ⟨hfresh, hrest⟩ := List.nodup_cons.1 hnodup
    -- either it is the first entry, or the first has another name and is passed over
    rcases List.mem_cons.1 h with rfl | h
    · rw [List.lookup_cons_self]
    · have hne : entry.1 ≠ first.1 := by
        intro heq
        exact hfresh (heq ▸ List.mem_map_of_mem h)
      rw [List.lookup_cons, beq_false_of_ne hne]
      exact ih hrest h

end PartialList

end Stencil
