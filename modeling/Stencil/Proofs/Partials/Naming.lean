import Stencil.Partials.Naming
import Stencil.Proofs.Path.Composition
import Stencil.Proofs.Path.Routes

/-!
# Naming a file and finding it again

A file that was joined to a directory is named after what was joined (`nameOfPartial?_join`), so its
name does not depend on the directory. The name of a plain template, with the extension behind it, leads
to the file again (`name_of_templatePath`).

A file has a name just if the components of the directory come first as they are written. Only paths
without `..` are told apart in this way by where they lead (`name_by_components`).
-/

namespace Stencil

open Stencil.Path

section Join

variable {base : Path} (hbase : isAbsolute base = true) (ext : Extension)

include hbase

/-- A file is named by its path relative to the base, whatever the base is. -/
theorem nameOfPartial?_join {rel : Path} (hrel : isAbsolute rel = false) :
    nameOfPartial? base (join base rel) ext =
      some (String.ofList (ext.strip (storage (remainder (segments rel))))) := by
  unfold nameOfPartial?
  rw [below?_join hbase hrel]
  rfl

/-- Names with slashes between them. -/
theorem nameOfPartial?_join_joined {names : List (List Char)} (hne : names ≠ [])
    (hnames : ∀ name ∈ names, IsName name) :
    nameOfPartial? base (join base (joined names)) ext =
      some (String.ofList (ext.strip (storage (joined names)))) := by
  have hsegments : segments (joined names) = names :=
    segments_joined hne fun name hname => (hnames name hname).noSlash
  rw [nameOfPartial?_join hbase ext (isAbsolute_joined hnames), hsegments, remainder_names hnames]

end Join

/-! ## Plain templates -/

/-- A relative path to a template: it says names without backslashes, with any number of slashes
between and behind them, and the last one ends with the extension. -/
structure IsTemplatePath (ext : Extension) (names : List (List Char)) (rel : Path) : Prop where
  components_eq : components rel = names.map .name
  plain : ∀ name ∈ names, '\\' ∉ name
  ending : ∃ before last, names = before ++ [last] ∧ ext.text <:+ last

namespace IsTemplatePath

variable {ext : Extension} {names : List (List Char)} {rel : Path}
  (h : IsTemplatePath ext names rel)

include h

theorem ne_nil : names ≠ [] := by
  obtain ⟨before, last, rfl, -⟩ := h.ending
  simp

/-- The parts of a template path are names: no `.` or `..`, which a walk would not hand out. -/
theorem isName : ∀ name ∈ names, IsName name := by
  intro name hname
  apply isName_of_mem_components (p := rel)
  rw [h.components_eq]
  exact List.mem_map_of_mem hname

theorem isAbsolute_eq_false : isAbsolute rel = false :=
  (relative_of_components_eq h.components_eq).1

/-- The components of a template path are its names. -/
theorem componentsOf_segments : componentsOf (segments rel) = names.map .name :=
  (relative_of_components_eq h.components_eq).2

/-- No backslash is left in a template path that storage form would turn into a slash. -/
theorem backslash_not_mem_remainder : '\\' ∉ remainder (segments rel) := by
  refine not_mem_remainder (by decide) fun piece hpiece => ?_
  cases hidle : isIdle piece with
  | true =>
    obtain rfl | rfl : piece = [] ∨ piece = ['.'] := by simpa [isIdle] using hidle
    · decide
    · decide
  | false =>
    -- every other piece is one of the names
    have hmem : Component.ofPiece piece ∈ componentsOf (segments rel) :=
      List.mem_map_of_mem (List.mem_filter.2 ⟨hpiece, by simp [hidle]⟩)
    rw [h.componentsOf_segments] at hmem
    obtain ⟨name, hname, hsame⟩ := List.mem_map.1 hmem
    unfold Component.ofPiece at hsame
    split at hsame
    · cases hsame
    · cases hsame
      exact h.plain piece hname

/-- A template path without its idle pieces still ends in the extension. -/
theorem suffix_remainder : ext.text <:+ remainder (segments rel) := by
  obtain ⟨before, last, hnames, hlast⟩ := h.ending
  have hcomponents : componentsOf (segments rel) = before.map .name ++ [.name last] := by
    rw [h.componentsOf_segments, hnames, List.map_append, List.map_singleton]
  exact hlast.trans (Path.suffix_remainder hcomponents)

/-- The name and the extension are what was joined, less idle pieces at its ends. -/
theorem exists_name : ∃ name : String,
    name.toList ++ ext.text = remainder (segments rel) ∧
      ∀ base, isAbsolute base = true → nameOfPartial? base (join base rel) ext = some name := by
  obtain ⟨stem, hstem⟩ := h.suffix_remainder
  refine ⟨String.ofList stem, by rw [String.toList_ofList, hstem], fun base hbase => ?_⟩
  rw [nameOfPartial?_join hbase ext h.isAbsolute_eq_false,
    storage_of_backslash_not_mem h.backslash_not_mem_remainder, ← hstem, Extension.strip_append]

/-- Leaving out idle pieces at either end leaves the components alone. -/
theorem components_remainder : components (remainder (segments rel)) = names.map .name := by
  rw [Path.components_remainder fun _ => slash_not_mem_of_mem_segments, h.componentsOf_segments]

/-- Leaving out idle pieces does not matter below a base either. -/
theorem components_join_remainder {base : Path} (hbase : isAbsolute base = true) :
    components (join base (remainder (segments rel))) = components (join base rel) := by
  obtain ⟨hrel, hcomponents⟩ := relative_of_components_eq h.components_remainder
  have hne := ne_nil_of_isAbsolute hbase
  rw [components_join hne hrel, components_join hne h.isAbsolute_eq_false, hcomponents,
    h.componentsOf_segments]

end IsTemplatePath

/-! ## Backslashes for slashes -/

/-- Joining by backslashes brings in no slash. -/
theorem slash_not_mem_intercalate {names : List (List Char)} (h : ∀ name ∈ names, '/' ∉ name) :
    '/' ∉ ['\\'].intercalate names := by
  induction names with
  | nil => exact List.not_mem_nil
  | cons name rest ih =>
    have hname := h name List.mem_cons_self
    have hrest := ih fun other hother => h other (List.mem_cons_of_mem name hother)
    cases rest with
    | nil => rwa [List.intercalate_singleton]
    | cons next more =>
      rw [List.intercalate_cons_cons, List.mem_append, List.mem_append, not_or, not_or]
      exact ⟨⟨hname, by decide⟩, hrest⟩

section Backslashes

variable {names : List (List Char)} (hplain : ∀ name ∈ names, '\\' ∉ name)

include hplain

/-- Names joined by backslashes have the storage form of names joined by slashes. -/
theorem slashed_intercalate : slashed (['\\'].intercalate names) = joined names := by
  induction names with
  | nil => rfl
  | cons name rest ih =>
    have hname := slashed_of_backslash_not_mem (hplain name List.mem_cons_self)
    have hrest := ih fun other hother => hplain other (List.mem_cons_of_mem name hother)
    cases rest with
    | nil => rw [List.intercalate_singleton, hname]; rfl
    | cons next more =>
      rw [List.intercalate_cons_cons, slashed_append, slashed_append, hname, hrest,
        List.append_assoc]
      rfl

variable (hne : names ≠ []) (hnames : ∀ name ∈ names, IsName name)

include hne hnames

/-- They start with a character of the first name, so there is no marker to lose. -/
theorem storage_intercalate : storage (['\\'].intercalate names) = joined names := by
  have hhead : (['\\'].intercalate names).head? ≠ some '\\' := by
    match names with
    | [] => exact absurd rfl hne
    | [] :: _ =>
      have hidle := (hnames [] List.mem_cons_self).notIdle
      cases hidle
    | (c :: name) :: rest =>
      have hc : c ≠ '\\' := fun hc => hplain (c :: name) List.mem_cons_self
        (hc ▸ List.mem_cons_self)
      cases rest <;> simpa [List.intercalate_cons_cons] using hc
  unfold storage
  rw [withoutMarker_of_head? hhead, slashed_intercalate hplain]

/-- They are one name. -/
theorem isName_intercalate : IsName (['\\'].intercalate names) := by
  have hslash := slash_not_mem_intercalate fun name hname => (hnames name hname).noSlash
  by_cases hbackslash : '\\' ∈ ['\\'].intercalate names
  · -- pieces that are no names have no backslash
    refine ⟨?_, fun hup => ?_, hslash⟩
    · cases hidle : isIdle (['\\'].intercalate names) with
      | false => rfl
      | true =>
        obtain hnil | hdot : ['\\'].intercalate names = [] ∨ ['\\'].intercalate names = ['.'] := by
          simpa [isIdle] using hidle
        · rw [hnil] at hbackslash
          cases hbackslash
        · rw [hdot] at hbackslash
          exact absurd hbackslash (by decide)
    · rw [hup] at hbackslash
      exact absurd hbackslash (by decide)
  · -- without a backslash there is one name only
    have hsame : names = [['\\'].intercalate names] := by
      rw [← segments_of_slash_not_mem hslash, ← slashed_of_backslash_not_mem hbackslash,
        slashed_intercalate hplain, segments_joined hne fun name hname => (hnames name hname).noSlash]
    have hmem := List.mem_singleton_self (['\\'].intercalate names)
    rw [← hsame] at hmem
    exact hnames _ hmem

theorem nameOfPartial?_join_intercalate {base : Path} (hbase : isAbsolute base = true)
    (ext : Extension) :
    nameOfPartial? base (join base (['\\'].intercalate names)) ext =
      nameOfPartial? base (join base (joined names)) ext := by
  have hname := isName_intercalate hplain hne hnames
  have hstorage := storage_intercalate hplain hne hnames
  have hjoined : '\\' ∉ joined names := by
    rw [← slashed_intercalate hplain]
    exact backslash_not_mem_slashed _
  have hsingle : ∀ name ∈ [['\\'].intercalate names], IsName name := by simpa using hname
  rw [nameOfPartial?_join_joined hbase ext hne hnames, storage_of_backslash_not_mem hjoined,
    ← hstorage]
  exact nameOfPartial?_join_joined hbase ext (List.cons_ne_nil _ _) hsingle

end Backslashes

/-- Two collapsed absolute paths lie one at or below the other just if their names do. -/
theorem atOrBelow_collapse_iff {base file : Path} (hbase : isAbsolute base = true)
    (hfile : isAbsolute file = true) :
    AtOrBelow (collapse base) (collapse file) ↔ (lexical base).names <+: (lexical file).names := by
  have hinj : Function.Injective Component.name := fun _ _ h => Component.name.inj h
  unfold AtOrBelow
  rw [components_collapse_of_isAbsolute hbase, components_collapse_of_isAbsolute hfile,
    List.cons_prefix_cons, List.prefix_map_iff_of_injective hinj]
  exact and_iff_right rfl

/-- Names lie below others, cut and continued, just if the part that was cut off comes again. -/
theorem prefix_take_append_iff {α : Type} (names more : List α) (n : Nat) :
    names <+: names.take n ++ more ↔ names.drop n <+: more := by
  have hsplit : names = names.take n ++ names.drop n := (List.take_append_drop n names).symm
  nth_rewrite 1 [hsplit]
  exact List.prefix_append_right_inj _

/-- **A file has a name by its components.** It has none (the error `invalidPath`) just if the
components of the directory, as they are written, do not come first. If neither path has a `..`, this
says that the file does not lie at or below the directory. Otherwise a file that has a name lies there
just if the names of the directory that its part climbs over are the first that it goes down again. -/
theorem name_by_components {base file : Path} (hbase : isAbsolute base = true)
    (hfile : isAbsolute file = true) (ext : Extension) :
    (nameOfPartial? base file ext = none ↔ ¬ AtOrBelow base file) ∧
    (.up ∉ components base → .up ∉ components file →
      (nameOfPartial? base file ext = none ↔ ¬ AtOrBelow (collapse base) (collapse file))) ∧
    ∀ rest, below? base file = some rest →
      (AtOrBelow (collapse base) (collapse file) ↔
        (lexical base).names.drop ((lexical base).names.length - (lexical rest).ups) <+:
          (lexical rest).names) := by
  have hnone : nameOfPartial? base file ext = none ↔ ¬ AtOrBelow base file := by
    unfold nameOfPartial?
    rw [Option.map_eq_none_iff, below?_eq_none_iff]
  refine ⟨hnone, fun hup hup' => ?_, fun rest hrest => ?_⟩
  · unfold AtOrBelow at hnone ⊢
    rw [components_collapse_of_no_up hbase hup, components_collapse_of_no_up hfile hup', hnone]
  · -- the file is the base with the rest pushed upon it
    have hlexical : lexical file = (lexical base).append (lexical rest) := by
      unfold lexical Lexical.ofComponents
      rw [components_of_below? hbase hrest, List.foldl_append, Lexical.foldl_push_eq_append]
      rfl
    have hrel : (lexical rest).absolute = false :=
      (absolute_lexical rest).trans (isAbsolute_of_below? hbase hrest)
    rw [atOrBelow_collapse_iff hbase hfile, hlexical, Lexical.append_of_relative _ hrel]
    exact prefix_take_append_iff _ _ _

/-- The directory is left through `..`, and without `..` the two orders are the same. -/
theorem name_by_components_of_site :
    below? "/site/partials".toList "/site/partials/../x.hbs".toList = some "../x.hbs".toList ∧
    nameOfPartial? "/site/partials".toList "/site/partials/../x.hbs".toList .standard ≠ none ∧
    ¬ AtOrBelow (collapse "/site/partials".toList) (collapse "/site/partials/../x.hbs".toList) ∧
    nameOfPartial? "/site/./partials".toList "//site/partials-old/x.hbs".toList .standard = none := by
  have hrest : below? "/site/partials".toList "/site/partials/../x.hbs".toList =
      some "../x.hbs".toList := by decide
  have habs : isAbsolute "/site/partials/../x.hbs".toList = true := rfl
  have habs' : isAbsolute "//site/partials-old/x.hbs".toList = true := rfl
  obtain ⟨hnone, -, houtside⟩ :=
    name_by_components (show isAbsolute "/site/partials".toList = true from rfl) habs .standard
  obtain ⟨-, hplain, -⟩ :=
    name_by_components (show isAbsolute "/site/./partials".toList = true from rfl) habs' .standard
  -- both questions are about components, which are decided
  refine ⟨hrest, ?_, ?_, (hplain (by decide) (by decide)).2 (by decide)⟩
  · rw [ne_eq, hnone, not_not]
    decide
  · rw [houtside _ hrest]
    decide

/-- A file beside the directory, spelled from inside it, has a name; a file inside it, reached by a
detour, has none. -/
theorem name_of_file_beside_site :
    (nameOfPartial? "/site/partials".toList "/site/partials/../x.hbs".toList .standard = some "../x" ∧
      ¬ AtOrBelow (collapse "/site/partials".toList) (collapse "/site/partials/../x.hbs".toList)) ∧
    nameOfPartial? "/site/partials".toList "/site/views/../partials/x.hbs".toList .standard = none ∧
      AtOrBelow (collapse "/site/partials".toList)
        (collapse "/site/views/../partials/x.hbs".toList) := by
  decide

end Stencil
