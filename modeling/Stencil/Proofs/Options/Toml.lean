import Stencil.Options.Toml
import Stencil.Proofs.Options.Literal
import Stencil.Proofs.Toml.Lines

/-!
# Plugin options read back

A configuration file that is written has a line for each text and switch that is set, and a table for the
compile options, in which the known helpers are one more table. It is read as these tables
(`read?_toToml`). Their entries are in the order of the file, but options see them in the order of their
names, as they see those of the literal (`shape_compileTable`), so the options are read back
(`ofToml_toToml`).
-/

namespace Stencil

open Toml

/-! ## Lines of what is set -/

section Set

variable {α : Type}

def linesOf (make : String → α → Line) (fields : List (String × Option α)) : List Line :=
  fields.filterMap fun field => field.2.map (make field.1)

theorem linesOf_nil (make : String → α → Line) : linesOf make [] = [] := rfl

/-- A field that has a value makes a line, any other makes none. -/
theorem linesOf_cons (make : String → α → Line) (name : String) (value : Option α)
    (rest : List (String × Option α)) :
    linesOf make ((name, value) :: rest) =
      (value.map (make name)).toList ++ linesOf make rest := by
  cases value <;> rfl

/-- The lines have the names of their fields, in order. -/
theorem linesOf_keys_sublist {make : String → α → Line} (hmake : ∀ name a, (make name a).key = name)
    (fields : List (String × Option α)) :
    ((linesOf make fields).map Line.key).Sublist (fields.map Prod.fst) := by
  induction fields with
  | nil => exact .slnil
  | cons field rest ih =>
    obtain ⟨name, value⟩ := field
    rw [linesOf_cons, List.map_cons]
    -- a field without a value is left out
    cases value with
    | none => exact ih.cons name
    | some a =>
      have hkey : (make name a).key = name := hmake name a
      simp only [Option.map_some, Option.toList_some, List.singleton_append, List.map_cons, hkey]
      exact ih.cons_cons name

end Set

/-- The members of a table as options see them. -/
def membersOf (values : List (String × Value)) : List (String × Shape) :=
  Value.shape.entryShapes values

/-- Members are seen entry by entry. -/
theorem membersOf_append (a b : List (String × Value)) :
    membersOf (a ++ b) = membersOf a ++ membersOf b := by
  unfold membersOf
  induction a with
  | nil => rfl
  | cons entry rest ih =>
    rw [List.cons_append, Value.shape.entryShapes, ih]
    rfl

/-- A table is looked at as an object, its members sorted. -/
theorem shape_table (values : List (String × Value)) :
    (Value.table values).shape = .object (Sorted.ofList (membersOf values)) := rfl

namespace CompileOptions

/-! ## Compile options -/

/-- The lines of the switches that are set. -/
def switchValues (o : CompileOptions) : List Line := linesOf Line.ofBool o.switches

def helperValues (known : KnownHelpers) : List Line :=
  known.entries.map fun entry => Line.ofBool entry.1 entry.2

/-- The lines of the switches are those of the switches that have a value. -/
theorem switchLines_eq (o : CompileOptions) :
    o.switchLines = o.switchValues.flatMap Line.chars := by
  unfold switchLines switchValues
  induction o.switches with
  | nil => rfl
  | cons switch rest ih =>
    obtain ⟨name, value⟩ := switch
    rw [List.flatMap_cons, ih, linesOf_cons, List.flatMap_append]
    cases value with
    | none => rfl
    | some b => simp [Line.chars, Line.ofBool]

/-- No line means that no switch has a value, so the writer may leave the table out. -/
theorem switchValues_eq_nil {o : CompileOptions} (h : o.switchLines.isEmpty = true) :
    o.switchValues = [] := by
  rw [switchLines_eq] at h
  cases hvalues : o.switchValues with
  | nil => rfl
  | cons l rest =>
    obtain ⟨c, more, hcons, -⟩ := l.exists_chars_eq_cons
    rw [hvalues, List.flatMap_cons, hcons] at h
    cases h

/-- No two switches share a name, which a table would refuse. -/
theorem nodup_switchValues (o : CompileOptions) : (o.switchValues.map Line.key).Nodup :=
  List.Nodup.sublist (linesOf_keys_sublist (fun _ _ => rfl) o.switches)
    (by simp [switches])

/-- No switch has the name of the table of known helpers. -/
theorem ne_of_mem_switchValues {o : CompileOptions} {l : Line} (h : l ∈ o.switchValues) :
    l.key ≠ "knownHelpers" := by
  have hname : l.key ∈ o.switches.map Prod.fst :=
    (linesOf_keys_sublist (fun _ _ => rfl) o.switches).subset (List.mem_map_of_mem h)
  rintro heq
  rw [heq] at hname
  simp [switches] at hname

theorem nodup_helperValues (known : KnownHelpers) :
    ((helperValues known).map Line.key).Nodup := by
  have hkeys : (helperValues known).map Line.key = known.entries.map Prod.fst := by
    simp [helperValues, Line.ofBool]
  rw [hkeys]
  exact known.ascending.nodup

/-- Options that know no helpers at all write no table for them. -/
theorem knownHelperLines_of_none {o : CompileOptions} (h : o.knownHelpers = none) :
    o.knownHelperLines = [] := by
  unfold knownHelperLines
  rw [h]

/-- An empty table of known helpers still has its header. -/
theorem knownHelperLines_of_some {o : CompileOptions} {known : KnownHelpers}
    (h : o.knownHelpers = some known) :
    o.knownHelperLines = "\n[compileOptions.knownHelpers]\n".toList ++
      ((helperValues known).flatMap Line.chars ++ []) := by
  unfold knownHelperLines
  rw [h, List.append_nil, helperValues, List.flatMap_map]
  rfl

def helperTable (known : KnownHelpers) : Table :=
  ({} : Table).setting ((helperValues known).map Line.entry)

/-- The table of compile options. It has no header if it has no switches but known helpers. -/
def compileTable (o : CompileOptions) : Table :=
  match o.knownHelpers with
  | none => ({} : Table).setting (o.switchValues.map Line.entry)
  | some known =>
    let switches : Table :=
      Table.setting { implied := o.switchLines.isEmpty } (o.switchValues.map Line.entry)
    switches.ending "knownHelpers" (helperTable known)

section Makes

variable {t : Table} (hfree : t.entries.lookup "compileOptions" = none)

include hfree

/-- The switches set their values in a table of their own. -/
theorem makes_switches {inside : List String} (o : CompileOptions) {rest : List Char}
    {result : Table}
    (h : Makes ["compileOptions"]
      (t.ending "compileOptions" (({} : Table).setting (o.switchValues.map Line.entry)))
      rest result) :
    Makes inside t ("\n[compileOptions]\n".toList ++ (o.switchLines ++ rest)) result := by
  have hleads : Table.Leads ["compileOptions"] (t.ending "compileOptions") :=
    Table.Leads.here.below hfree
  have hvalues : Makes ["compileOptions"] (t.ending "compileOptions" {})
      (o.switchLines ++ rest) result := by
    rw [switchLines_eq]
    exact .values hleads rfl o.nodup_switchValues (fun _ _ => rfl) h
  have hopen : t.openTable [] "compileOptions" = some (t.ending "compileOptions" {}) :=
    Table.Leads.here.openTable hfree
  -- the header opens the table at the root, where nothing of that name is
  exact hvalues.header hopen (by decide) nofun (by decide)

/-- Known helpers set their values in a table of their own, inside that of the options. -/
theorem makes_helpers {inside : List String} {inner : Table}
    (hinner : inner.entries.lookup "knownHelpers" = none) (known : KnownHelpers) {rest : List Char}
    {t' : Table}
    (hopen : t'.openTable ["compileOptions"] "knownHelpers" =
      some (t.ending "compileOptions" (inner.ending "knownHelpers" {})))
    {result : Table}
    (h : Makes ["compileOptions", "knownHelpers"]
      (t.ending "compileOptions" (inner.ending "knownHelpers" (helperTable known))) rest result) :
    Makes inside t' ("\n[compileOptions.knownHelpers]\n".toList ++
      ((helperValues known).flatMap Line.chars ++ rest)) result := by
  have hleads : Table.Leads ["compileOptions", "knownHelpers"] fun helpers =>
      t.ending "compileOptions" (inner.ending "knownHelpers" helpers) :=
    (Table.Leads.here.below hinner).below hfree
  have hvalues : Makes ["compileOptions", "knownHelpers"]
      (t.ending "compileOptions" (inner.ending "knownHelpers" {}))
      ((helperValues known).flatMap Line.chars ++ rest) result :=
    .values hleads rfl (nodup_helperValues known) (fun _ _ => rfl) h
  -- the header opens the inner table through the outer one, whether that has a header or not
  exact hvalues.header hopen (by decide) (by decide) (by decide)

/-- The tables of compile options are the last of a file. -/
theorem makes_tomlLines (inside : List String) (o : CompileOptions) :
    Makes inside t o.tomlLines (t.ending "compileOptions" o.compileTable) := by
  unfold tomlLines compileTable
  -- the header of the switches is written if there are switches to write, or no known helpers
  cases hknown : o.knownHelpers with
  | none =>
    rw [knownHelperLines_of_none hknown]
    simp only [Option.isSome_none, Bool.and_false, Bool.false_eq_true, if_false, List.append_assoc]
    exact makes_switches hfree o (.nil _ _)
  | some known =>
    rw [knownHelperLines_of_some hknown]
    simp only [Option.isSome_some, Bool.and_true]
    cases hempty : o.switchLines.isEmpty with
    | true =>
      -- the inner header makes the outer table on its way
      rw [switchValues_eq_nil hempty, List.map_nil, Table.setting_nil]
      exact makes_helpers hfree rfl known (Table.openTable_missing hfree _) (.nil _ _)
    | false =>
      simp only [Bool.false_eq_true, if_false, List.append_assoc]
      have hinner : (({} : Table).setting (o.switchValues.map Line.entry)).entries.lookup
          "knownHelpers" = none := by
        refine Table.lookup_setting rfl fun entry hentry => ?_
        obtain ⟨l, hl, rfl⟩ := List.mem_map.1 hentry
        exact ne_of_mem_switchValues hl
      have hleads : Table.Leads ["compileOptions"] (t.ending "compileOptions") :=
        Table.Leads.here.below hfree
      exact makes_switches hfree o
        (makes_helpers hfree hinner known (hleads.openTable hinner) (.nil _ _))

end Makes

/-! ## The same options as in the literal -/

/-- The members read from the lines of the switches are those that JSON would have for them. -/
theorem membersOf_switchValues (switches : List (String × Option Bool)) :
    membersOf ((linesOf Line.ofBool switches).map Line.entry) =
      Shape.ofJson.ofMembers (present (switches.map (Prod.map id (Option.map Json.bool)))) := by
  induction switches with
  | nil => rfl
  | cons switch rest ih =>
    obtain ⟨name, value⟩ := switch
    rw [linesOf_cons, List.map_append, membersOf_append, ih, List.map_cons, present_cons,
      Shape.ofMembers_eq_map, Shape.ofMembers_eq_map, List.map_append]
    cases value <;> rfl

/-- Known helpers are in the order of their names. -/
theorem shape_helperTable (known : KnownHelpers) :
    (Value.table (helperTable known).frozen).shape = Shape.ofJson known.toJson := by
  have hmembers : membersOf ((helperValues known).map Line.entry) =
      known.entries.map (Prod.map id Shape.bool) := by
    unfold helperValues membersOf
    induction known.entries with
    | nil => rfl
    | cons entry rest ih =>
      rw [List.map_cons, List.map_cons, Value.shape.entryShapes, ih]
      rfl
  -- known helpers are in ascending order as they are, so sorting the members changes nothing
  have hascending : Sorted.Ascending (known.entries.map (Prod.map id Shape.bool)) :=
    List.pairwise_map.2 known.ascending
  have htable : (helperTable known).frozen = (helperValues known).map Line.entry := by
    unfold helperTable
    rw [Table.frozen_setting]
    rfl
  rw [htable, shape_table, hmembers, Sorted.ofList_eq_self hascending, KnownHelpers.toJson,
    Shape.ofJson, Shape.ofMembers_eq_map, List.map_map]
  rfl

def fieldsByKind (o : CompileOptions) : List (String × Option Json) :=
  o.switches.map (Prod.map id (Option.map Json.bool)) ++
    [("knownHelpers", o.knownHelpers.map KnownHelpers.toJson)]

/-- The writer of TOML puts known helpers after the switches; JSON puts them among the switches. -/
theorem fieldsByKind_perm (o : CompileOptions) : o.fieldsByKind.Perm o.fields := by
  have hfirst : o.fieldsByKind.Perm (("knownHelpers", o.knownHelpers.map KnownHelpers.toJson) ::
      o.switches.map (Prod.map id (Option.map Json.bool))) := List.perm_append_singleton _ _
  refine hfirst.trans ?_
  -- in the order of the literal, two switches come before the known helpers
  exact (List.perm_middle :
    ([("data", o.data.map Json.bool), ("compat", o.compat.map Json.bool)] ++ _ :: _).Perm _).symm

/-- What is read back has the members of the JSON of the options, in the writer's order. -/
theorem membersOf_compileTable (o : CompileOptions) :
    membersOf o.compileTable.frozen = Shape.ofJson.ofMembers (present o.fieldsByKind) := by
  have hpresent : present o.fieldsByKind =
      present (o.switches.map (Prod.map id (Option.map Json.bool))) ++
        present [("knownHelpers", o.knownHelpers.map KnownHelpers.toJson)] :=
    List.filterMap_append
  have hswitches : membersOf (o.switchValues.map Line.entry) = _ :=
    membersOf_switchValues o.switches
  rw [hpresent, Shape.ofMembers_eq_map, List.map_append, ← Shape.ofMembers_eq_map, ← hswitches]
  -- with known helpers there is one entry more, their table
  unfold compileTable
  cases o.knownHelpers with
  | none =>
    simp only [Table.frozen_setting]
    exact (List.append_nil _).symm
  | some known =>
    simp only [Table.frozen_ending, Table.frozen_setting, membersOf_append]
    have hhelpers : membersOf [("knownHelpers", Value.table (helperTable known).frozen)] =
        [("knownHelpers", Shape.ofJson known.toJson)] := by
      rw [← shape_helperTable known]
      rfl
    rw [hhelpers]
    rfl

/-- Options see the table as they see the value of the options. -/
theorem shape_compileTable (o : CompileOptions) :
    (Value.table o.compileTable.frozen).shape = Shape.ofJson o.toJson := by
  have hascending : Sorted.Ascending (Shape.ofJson.ofMembers (present o.fieldsByName)) := by
    rw [Shape.ofMembers_eq_map]
    exact List.pairwise_map.2 o.ascending_present
  have hperm : (Shape.ofJson.ofMembers (present o.fieldsByKind)).Perm
      (Shape.ofJson.ofMembers (present o.fieldsByName)) := by
    rw [Shape.ofMembers_eq_map, Shape.ofMembers_eq_map]
    exact ((o.fieldsByKind_perm.trans o.fields_perm).filterMap _).map _
  rw [shape_table, membersOf_compileTable, Sorted.ofList_eq_of_perm hascending hperm, toJson_eq]
  rfl

end CompileOptions

namespace PluginOptions

/-! ## Plugin options -/

/-- The lines of the texts and the switch that are set. -/
def values (o : PluginOptions) : List Line :=
  linesOf Line.ofText [("templateFileExtension", o.templateFileExtension),
      ("partialsDirectoryPath", o.partialsDirectoryPath)] ++
    [Line.ofBool "optimizePartialRegistration" o.optimizePartialRegistration]

def table (o : PluginOptions) : Table :=
  (({} : Table).setting (o.values.map Line.entry)).ending "compileOptions"
    o.compileOptions.compileTable

/-- A file is its lines and the tables of the compile options. -/
theorem toToml_eq (o : PluginOptions) :
    o.toToml = String.ofList (o.values.flatMap Line.chars ++ o.compileOptions.tomlLines) := by
  have htext (name : String) (value : Option String) :
      textLine name value = ((value.map (Line.ofText name)).toList).flatMap Line.chars := by
    cases value with
    | none => rfl
    | some s => exact (List.append_nil _).symm
  unfold toToml values
  rw [htext, htext, linesOf_cons, linesOf_cons, linesOf_nil]
  simp only [List.flatMap_append, List.flatMap_cons, List.flatMap_nil, List.append_assoc,
    List.append_nil]
  rfl

/-- The plain values come in this order, each at most once. -/
theorem keys_sublist (o : PluginOptions) :
    (o.values.map Line.key).Sublist
      ["templateFileExtension", "partialsDirectoryPath", "optimizePartialRegistration"] := by
  unfold values
  rw [List.map_append]
  exact (linesOf_keys_sublist (fun _ _ => rfl) _).append_right _

/-- The file is read as its table. -/
theorem read?_toToml (o : PluginOptions) : Toml.read? o.toToml = some (.table o.table.frozen) := by
  have hnodup : (o.values.map Line.key).Nodup := o.keys_sublist.nodup (by decide)
  -- the table of compile options is none of the plain values, so its header finds its place free
  have hfree : (({} : Table).setting (o.values.map Line.entry)).entries.lookup "compileOptions" =
      none := by
    refine Table.lookup_setting rfl fun entry hentry heq => ?_
    obtain ⟨l, hl, rfl⟩ := List.mem_map.1 hentry
    have hname := o.keys_sublist.subset (List.mem_map_of_mem hl)
    rw [show l.key = "compileOptions" from heq] at hname
    exact absurd hname (by decide)
  have hmakes : Makes [] {} (o.values.flatMap Line.chars ++ o.compileOptions.tomlLines) o.table :=
    .values Table.Leads.here rfl hnodup (fun _ _ => rfl)
      (o.compileOptions.makes_tomlLines hfree [])
  have hne : o.values ≠ [] := List.append_ne_nil_of_right_ne_nil _ (List.cons_ne_nil _ _)
  obtain ⟨l, rest, hvalues⟩ := List.exists_cons_of_ne_nil hne
  rw [toToml_eq]
  rw [hvalues, List.flatMap_cons, List.append_assoc] at hmakes ⊢
  exact read?_of_makes hmakes

/-- The members of the file, in the order of their names. -/
def members (o : PluginOptions) : List (String × Shape) :=
  (membersOf o.table.frozen).reverse

/-- The whole file has the plain values and the compile options as members. -/
theorem membersOf_table (o : PluginOptions) :
    membersOf o.table.frozen = membersOf (o.values.map Line.entry) ++
      [("compileOptions", Shape.ofJson o.compileOptions.toJson)] := by
  unfold table
  rw [Table.frozen_ending, Table.frozen_setting, membersOf_append,
    ← o.compileOptions.shape_compileTable]
  rfl

/-- Sorted by name, the compile options come first and the plain values in reverse. -/
theorem members_eq (o : PluginOptions) :
    o.members = ("compileOptions", Shape.ofJson o.compileOptions.toJson) ::
      (membersOf (o.values.map Line.entry)).reverse := by
  unfold members
  rw [membersOf_table, List.reverse_append]
  rfl

/-- The file has its lines against the order of their names. -/
theorem ascending_members (o : PluginOptions) : Sorted.Ascending o.members := by
  -- an entry is known to the options by the key of its line
  have hnames (values : List Line) :
      (membersOf (values.map Line.entry)).map Prod.fst = values.map Line.key := by
    unfold membersOf
    induction values with
    | nil => rfl
    | cons l rest ih =>
      rw [List.map_cons, Value.shape.entryShapes, List.map_cons, ih]
      rfl
  have hsublist : (o.members.map Prod.fst).Sublist
      ["compileOptions", "optimizePartialRegistration", "partialsDirectoryPath",
        "templateFileExtension"] := by
    rw [members_eq, List.map_cons, List.map_reverse, hnames]
    exact o.keys_sublist.reverse.cons_cons _
  exact List.pairwise_map.1 (List.Pairwise.sublist hsublist (by decide))

/-- Setting the options in the order of their names gives the options. -/
theorem foldlM_members (o : PluginOptions) :
    o.members.foldlM (fun o member => Shape.setPluginOption o member.1 member.2) {} = .ok o := by
  have hcompile : Shape.setPluginOption {} "compileOptions" (Shape.ofJson o.compileOptions.toJson) =
      .ok { compileOptions := o.compileOptions } := by
    show (CompileOptions.ofShape _).bind _ = _
    rw [o.compileOptions.ofShape_toJson]
    rfl
  rw [members_eq, List.foldlM_cons, hcompile]
  obtain ⟨extension, directory, optimize, compile⟩ := o
  -- each text is set or not
  cases extension with
  | none => cases directory <;> rfl
  | some extension => cases directory <;> rfl

/-- **Plugin options survive a configuration file.** -/
theorem ofToml_toToml (o : PluginOptions) : PluginOptions.ofToml o.toToml = .ok o := by
  have hread := o.read?_toToml
  have hmembers : Sorted.ofList (membersOf o.table.frozen) = o.members :=
    Sorted.ofList_eq_of_perm o.ascending_members (List.reverse_perm _).symm
  have hshape : PluginOptions.ofShape (Value.table o.table.frozen).shape = .ok o := by
    rw [shape_table, hmembers]
    exact o.foldlM_members
  unfold ofToml
  rw [hread]
  simp only [hshape]
  rfl

end PluginOptions

end Stencil
