import Mathlib
import Stencil.Proofs.Json.WellFormed
import Stencil.Proofs.Options.Alike
import Stencil.Proofs.Options.Toml
import Stencil.Proofs.Toml.Distinct

/-!
# Options are read as documented

Options see the tables of a configuration file with their keys in order. As no key is named twice, that is
the only difference from the tables as they are written (`Toml.Value.Distinct.alike_given`). So options are
read from files that parse and from objects of data just if these are as documented
(`PluginOptions.ReadFrom.documented`), and whatever the order of keys is. A number out of range makes a file
malformed wherever it stands (`PluginOptions.ofToml_of_number_out_of_range`).
-/

namespace Stencil

/-- An integer is passed over just if 128 bits hold it, with a sign or without. -/
theorem Shape.ignored_integer_iff {n : Int} :
    (Shape.integer n).ignored = .ok () ↔ -(2 ^ 127) ≤ n ∧ n < 2 ^ 128 := by
  have hwide : (Word.holdsSigned 128 n || Word.holdsUnsigned 128 n) = true ↔
      -(2 ^ 127) ≤ n ∧ n < 2 ^ 128 := by
    have hsigned : (Word.count (128 - 1) : Int) = 2 ^ 127 := by decide
    have hunsigned : (Word.count 128 : Int) = 2 ^ 128 := by decide
    rw [Bool.or_eq_true, Word.holdsSigned_iff, Word.holdsUnsigned_iff, hsigned, hunsigned]
    omega
  rw [← hwide]
  unfold Shape.integer
  cases Word.holdsSigned 128 n || Word.holdsUnsigned 128 n <;> simp [Shape.ignored]

/-- The integers that a word of 64 bits holds are far from the ends of the range. -/
theorem inRange_of_holds {n : Int} (h : Word.holdsSigned 64 n ∨ Word.holdsUnsigned 64 n) :
    -(2 ^ 127) ≤ n ∧ n < 2 ^ 128 := by
  have hsigned : (Word.count (64 - 1) : Int) = 2 ^ 63 := by decide
  have hunsigned : (Word.count 64 : Int) = 2 ^ 64 := by decide
  rw [Word.holdsSigned_iff, Word.holdsUnsigned_iff, hsigned, hunsigned] at h
  omega

/-! ## Values of configuration files -/

namespace Toml.Value

/-- A value as it is written, with the keys of tables in the order of the file. -/
def given : Value → Shape
  | .array items => .array (givenItems items) true
  | .table entries => .object (givenEntries entries)
  | v => v.shape
where
  givenItems : List Value → List Shape
    | [] => []
    | x :: xs => given x :: givenItems xs
  givenEntries : List (String × Value) → List (String × Shape)
    | [] => []
    | (key, x) :: xs => (key, given x) :: givenEntries xs

theorem givenItems_eq_map (items : List Value) : given.givenItems items = items.map given := by
  induction items with
  | nil => rfl
  | cons item rest ih => rw [given.givenItems, ih, List.map_cons]

theorem givenEntries_eq_map (entries : List (String × Value)) :
    given.givenEntries entries = entries.map (Prod.map id given) := by
  induction entries with
  | nil => rfl
  | cons entry rest ih =>
    rw [given.givenEntries, ih]
    rfl

theorem shapes_eq_map (items : List Value) : shape.shapes items = items.map shape := by
  induction items with
  | nil => rfl
  | cons item rest ih => rw [shape.shapes, ih, List.map_cons]

theorem membersOf_eq_map (entries : List (String × Value)) :
    membersOf entries = entries.map (Prod.map id shape) := by
  induction entries with
  | nil => rfl
  | cons entry rest ih =>
    show (entry.1, shape entry.2) :: membersOf rest = _
    rw [ih]
    rfl

/-- Where no key is named twice, sorting the members of a table is putting them in another order. -/
theorem perm_members {entries : List (String × Value)} (hkeys : (entries.map Prod.fst).Nodup) :
    (Sorted.ofList (membersOf entries)).Perm (entries.map (Prod.map id shape)) := by
  rw [membersOf_eq_map]
  refine Sorted.perm_ofList ?_
  rwa [List.map_map]

/-- A value as options see it is the value as it is written, but for the order of keys. -/
theorem Distinct.alike_given {v : Value} (h : v.Distinct) : Shape.Alike v.shape v.given := by
  induction h with
  | @array items _ ih =>
    show Shape.Alike (.array (shape.shapes items) true) (.array (given.givenItems items) true)
    rw [shapes_eq_map, givenItems_eq_map]
    refine .array true (by rw [List.length_map, List.length_map]) fun i hi hi' => ?_
    simp only [List.getElem_map]
    exact ih _ (List.getElem_mem _)
  | @table entries hkeys _ ih =>
    show Shape.Alike (.object (Sorted.ofList (membersOf entries))) (.object (given.givenEntries entries))
    have hperm := perm_members hkeys
    rw [givenEntries_eq_map]
    refine .object ?_ fun name v v' hv hv' => ?_
    · have hnames := hperm.map Prod.fst
      rw [List.map_map] at hnames ⊢
      exact hnames
    · obtain ⟨⟨key, x⟩, hx, ⟨⟩⟩ := List.mem_map.1 (hperm.subset hv)
      obtain ⟨⟨key, y⟩, hy, ⟨⟩⟩ := List.mem_map.1 hv'
      -- the key is there once, so it has one value
      have hlookup := (Sorted.lookup_eq_some_iff_mem hkeys).2 hx
      rw [(Sorted.lookup_eq_some_iff_mem hkeys).2 hy] at hlookup
      cases hlookup
      exact ih _ hx
  | _ => exact .refl _

/-- A value as it is written names no key twice either. -/
theorem Distinct.given {v : Value} (h : v.Distinct) : v.given.Distinct := by
  induction h with
  | text s => exact .text s
  | integer n => exact .number _ _
  | float x => cases x <;> exact .number _ _
  | boolean b => exact .bool b
  -- a date is looked at as a table with one key
  | datetime spelling =>
    refine .object (List.nodup_singleton _) fun member hmember => ?_
    cases List.mem_singleton.1 hmember
    exact .text spelling
  | @array items _ ih =>
    show (Shape.array (given.givenItems items) true).Distinct
    rw [givenItems_eq_map]
    exact .array true (List.forall_mem_map.2 ih)
  | @table entries hkeys _ ih =>
    show (Shape.object (given.givenEntries entries)).Distinct
    rw [givenEntries_eq_map]
    refine .object ?_ (List.forall_mem_map.2 ih)
    rwa [List.map_map]

theorem Distinct.shape {v : Value} (h : v.Distinct) : v.shape.Distinct :=
  h.alike_given.symm.distinct h.given

/-- Item by item, as a statement about membership. -/
theorem areStandard_iff {items : List Value} :
    isStandard.areStandard items = true ↔ ∀ item ∈ items, item.isStandard = true := by
  induction items with
  | nil => simp [isStandard.areStandard]
  | cons item rest ih => rw [isStandard.areStandard, Bool.and_eq_true, ih, List.forall_mem_cons]

theorem entriesStandard_iff {entries : List (String × Value)} :
    isStandard.entriesStandard entries = true ↔ ∀ entry ∈ entries, entry.2.isStandard = true := by
  induction entries with
  | nil => simp [isStandard.entriesStandard]
  | cons entry rest ih =>
    rw [isStandard.entriesStandard, Bool.and_eq_true, ih, List.forall_mem_cons]

/-- No number in a value is out of range: each integer fits in 128 bits, with a sign or without, and
each float in a double. -/
inductive InRange : Value → Prop
  | text (s : String) : InRange (.text s)
  | integer {n : Int} (h : -(2 ^ 127) ≤ n ∧ n < 2 ^ 128) : InRange (.integer n)
  | float (x : Binary64) : InRange (.float (some x))
  | boolean (b : Bool) : InRange (.boolean b)
  | datetime (spelling : String) : InRange (.datetime spelling)
  | array {items : List Value} (h : ∀ item ∈ items, InRange item) : InRange (.array items)
  | table {entries : List (String × Value)} (h : ∀ entry ∈ entries, InRange entry.2) :
    InRange (.table entries)

theorem inRange_array_iff {items : List Value} :
    (Value.array items).InRange ↔ ∀ item ∈ items, item.InRange :=
  ⟨fun h => by cases h with | array h => exact h, .array⟩

theorem inRange_table_iff {entries : List (String × Value)} :
    (Value.table entries).InRange ↔ ∀ entry ∈ entries, entry.2.InRange :=
  ⟨fun h => by cases h with | table h => exact h, .table⟩

/-- The numbers that the format promises are in range. -/
theorem Distinct.inRange_of_isStandard {v : Value} (h : v.Distinct) (hstandard : v.isStandard = true) :
    v.InRange := by
  induction h with
  | text s => exact .text s
  | integer n => exact .integer (inRange_of_holds (.inl hstandard))
  -- a float that is too large for a double is not standard
  | float x =>
    cases x with
    | none => cases hstandard
    | some x => exact .float x
  | boolean b => exact .boolean b
  | datetime spelling => exact .datetime spelling
  | array _ ih =>
    have hitems := areStandard_iff.1 hstandard
    exact .array fun item hitem => ih item hitem (hitems item hitem)
  | table _ _ ih =>
    have hentries := entriesStandard_iff.1 hstandard
    exact .table fun entry hentry => ih entry hentry (hentries entry hentry)

/-- A value is passed over just if no number in it is out of range. Sorting the members of a table
loses none where no key is named twice. -/
theorem Distinct.ignored_iff_inRange {v : Value} (h : v.Distinct) :
    v.shape.ignored = .ok () ↔ v.InRange := by
  induction h with
  | text s => exact iff_of_true rfl (.text s)
  | integer n =>
    refine Shape.ignored_integer_iff.trans ⟨.integer, fun h => ?_⟩
    cases h with
    | integer h => exact h
  | float x =>
    cases x with
    | none => exact iff_of_false (fun h => by cases h) (fun h => by cases h)
    | some x => exact iff_of_true rfl (.float x)
  | boolean b => exact iff_of_true rfl (.boolean b)
  | datetime spelling => exact iff_of_true rfl (.datetime spelling)
  | @array items _ ih =>
    show (Shape.array (Value.shape.shapes items) true).ignored = _ ↔ _
    rw [shapes_eq_map, Shape.ignored_array_iff, List.forall_mem_map, inRange_array_iff]
    exact forall₂_congr ih
  -- options see the members sorted, which are the same ones
  | @table entries hkeys _ ih =>
    show (Shape.object (Sorted.ofList (membersOf entries))).ignored = _ ↔ _
    simp only [Shape.ignored_object_iff, (perm_members hkeys).mem_iff]
    rw [List.forall_mem_map, inRange_table_iff]
    exact forall₂_congr ih

end Toml.Value

/-! ## Values of data -/

namespace Shape

/-- Objects of data have each name once. -/
theorem distinct_ofJson {x : Json} (h : x.WellFormed) : (ofJson x).Distinct := by
  induction h with
  | null => exact .null
  | bool b => exact .bool b
  | int _ => exact .number _ _
  | double x => exact .number _ _
  | string s => exact .text s
  | @array items _ ih =>
    show (Shape.array (ofJson.ofItems items) false).Distinct
    rw [ofItems_eq_map]
    exact .array false (List.forall_mem_map.2 ih)
  -- well-formed objects have distinct names already
  | @object members hnames _ ih =>
    show (Shape.object (ofJson.ofMembers members)).Distinct
    rw [ofMembers_eq_map]
    refine .object ?_ (List.forall_mem_map.2 ih)
    rwa [List.map_map]

/-- Numbers of data are not out of range. -/
theorem ignored_ofJson {x : Json} (h : x.WellFormed) : (ofJson x).ignored = .ok () := by
  induction h with
  | int h => exact ignored_integer_iff.2 (inRange_of_holds h)
  | @array items _ ih =>
    show (Shape.array (ofJson.ofItems items) false).ignored = _
    rw [ofItems_eq_map, ignored_array_iff]
    exact List.forall_mem_map.2 ih
  | @object members _ _ ih =>
    show (Shape.object (ofJson.ofMembers members)).ignored = _
    rw [ofMembers_eq_map, ignored_object_iff]
    exact List.forall_mem_map.2 ih
  | _ => rfl

end Shape

/-! ## Options -/

namespace PluginOptions

open Toml (Value)
open Shape (Alike)

variable {members members' : List (String × Shape)} {result result' : Option PluginOptions}

/-- The options, if any, that are read from a table as it is given: from a configuration file that parses, so
that it is well formed and no number in it is out of range, or from an object of data. -/
inductive ReadFrom : List (String × Shape) → Option PluginOptions → Prop
  | toml {source : String} {entries : List (String × Value)}
    (hread : Toml.read? source = some (.table entries))
    (hnumbers : (Value.table entries).InRange) :
    ReadFrom (Value.given.givenEntries entries) (ofToml source).toOption
  | json {members : List (String × Json)} (h : (Json.object members).WellFormed) :
    ReadFrom (Shape.ofJson.ofMembers members) (ofShape (.ofJson (.object members))).toOption

/-- A file that parses gives options by its value; an error tells the numbers of the file apart. -/
theorem ofToml_of_read? {source : String} {v : Value} (hread : Toml.read? source = some v) :
    ofToml source =
      (ofShape v.shape).mapError fun e => if v.isStandard then .shape e else .malformed := by
  unfold ofToml
  rw [hread]

/-- A file whose numbers are not all in range is reported as not well formed. -/
theorem ofToml_of_number_out_of_range {source : String} {entries : List (String × Value)}
    (hread : Toml.read? source = some (.table entries))
    (harray : ∀ items longer,
      ("compileOptions", Shape.array items longer) ∉ Value.given.givenEntries entries)
    (hnumbers : ¬ (Value.table entries).InRange) :
    ofToml source = .error .malformed := by
  -- if options could be read, each number would be in range
  have hdistinct := (Toml.distinct_of_read? hread).1
  have hseen := hdistinct.alike_given.symm.array_not_mem harray
  have hstandard : (Value.table entries).isStandard = false :=
    Bool.eq_false_iff.2 (mt hdistinct.inRange_of_isStandard hnumbers)
  rw [ofToml_of_read? hread, hstandard]
  cases hshape : ofShape (Value.table entries).shape with
  | error e => rfl
  | ok o =>
    have hignored := ((exists_ofShape_iff hseen).1 ⟨o, hshape⟩).2
    exact absurd (hdistinct.ignored_iff_inRange.1 hignored) hnumbers

/-- What is read, options see with the same keys in some order. -/
theorem ReadFrom.exists_seen (h : ReadFrom members result) :
    ∃ seen, Alike (.object seen) (.object members) ∧ (Shape.object seen).Distinct ∧
      (Shape.object seen).ignored = .ok () ∧ result = (ofShape (.object seen)).toOption := by
  cases h with
  | toml hread hnumbers =>
    have hdistinct := (Toml.distinct_of_read? hread).1
    refine ⟨_, hdistinct.alike_given, hdistinct.shape, hdistinct.ignored_iff_inRange.2 hnumbers, ?_⟩
    rw [ofToml_of_read? hread, toOption_mapError]
    rfl
  | json h => exact ⟨_, .refl _, Shape.distinct_ofJson h, Shape.ignored_ofJson h, rfl⟩

/-- Whatever options are read from names no key twice. -/
theorem ReadFrom.distinct (h : ReadFrom members result) : (Shape.object members).Distinct := by
  obtain ⟨seen, halike, hseen, -, -⟩ := h.exists_seen
  exact halike.distinct hseen

/-- Options are read just if they are as documented, and are what is given. -/
theorem ReadFrom.documented (h : ReadFrom members result)
    (harray : ∀ items longer, ("compileOptions", Shape.array items longer) ∉ members) :
    (result.isSome ↔ IsDocumented members) ∧ ∀ o, result = some o → Gives members o := by
  obtain ⟨seen, halike, hdistinct, hnumbers, rfl⟩ := h.exists_seen
  have hseen := halike.symm.array_not_mem harray
  constructor
  · rw [Option.isSome_iff_exists, ← isDocumented_iff_of_alike halike]
    simp only [toOption_eq_some_iff, exists_ofShape_iff hseen, hnumbers, and_true]
  · intro o ho
    exact (gives_of_ofShape hdistinct hseen (toOption_eq_some_iff.1 ho)).of_alike halike hdistinct

/-- **Options are read as documented.** They are read just if each is what it may be, members that are no
options being ignored; each field then is what is given, or else its default; and the order of keys does
not matter. As an array may stand in place of a table, compile options given as one are left aside. -/
theorem readFrom_iff_documented (h : ReadFrom members result)
    (harray : ∀ items longer, ("compileOptions", Shape.array items longer) ∉ members) :
    (result.isSome ↔ IsDocumented members) ∧ (∀ o, result = some o → Gives members o) ∧
      ∀ members' result', ReadFrom members' result' →
        Alike (.object members) (.object members') → result' = result := by
  obtain ⟨hread, hgives⟩ := h.documented harray
  refine ⟨hread, hgives, fun members' result' h' halike => ?_⟩
  obtain ⟨hread', hgives'⟩ := h'.documented (halike.array_not_mem harray)
  have hsome : result'.isSome ↔ result.isSome := by
    rw [hread, hread', isDocumented_iff_of_alike halike]
  -- both are read or neither is, and what is given determines the options
  cases result with
  | none =>
    cases result' with
    | none => rfl
    | some o' => exact absurd (hsome.1 rfl) nofun
  | some o =>
    cases result' with
    | none => exact absurd (hsome.2 rfl) nofun
    | some o' =>
      have hsame := (hgives o rfl).of_alike halike h.distinct
      rw [hsame.unique (hgives' o' rfl)]

/-- A file with a key that is no option. -/
def siteFile : String :=
  "owner = true\n[compileOptions]\nstrict = true\nknownHelpers = \x7blink = true\x7d\n"

def siteEntries : List (String × Value) :=
  [("owner", .boolean true), ("compileOptions", .table
    [("strict", .boolean true), ("knownHelpers", .table [("link", .boolean true)])])]

/-- The same as data, which has its keys in another order. -/
def siteData : List (String × Json) :=
  [("compileOptions", .object
    [("knownHelpers", .object [("link", .bool true)]), ("strict", .bool true)]),
    ("owner", .bool true)]

theorem read?_siteFile : Toml.read? siteFile = some (.table siteEntries) := by cbv

theorem wellFormed_siteData : (Json.object siteData).WellFormed := by
  refine Json.wellFormed_of_read? (?_ : Json.read? ("\x7b\"owner\": true, \"compileOptions\": " ++
    "\x7b\"strict\": true, \"knownHelpers\": \x7b\"link\": true\x7d\x7d\x7d").toList = _)
  cbv

theorem isDocumented_siteEntries : IsDocumented (Value.given.givenEntries siteEntries) := by
  refine List.forall_mem_cons.2 ⟨trivial, List.forall_mem_singleton.2 ⟨_, rfl, ?_⟩⟩
  refine List.forall_mem_cons.2 ⟨⟨by decide, .inr ⟨true, rfl⟩⟩, List.forall_mem_singleton.2 ?_⟩
  exact ⟨by decide, .inr ⟨_, rfl, List.forall_mem_singleton.2 ⟨true, rfl⟩⟩⟩

theorem alike_siteData :
    Alike (.object (Value.given.givenEntries siteEntries)) (.object (Shape.ofJson.ofMembers siteData)) :=
  .swap (by decide) (.refl _) (.swap (by decide) (.refl _) (.refl _))

theorem readFrom_of_site :
    ∃ o, (ofToml siteFile).toOption = some o ∧
      (ofShape (.ofJson (.object siteData))).toOption = some o ∧
      o.compileOptions.strict = some true ∧ o.compileOptions.compat = none := by
  have hnumbers : (Value.table siteEntries).InRange :=
    (Toml.distinct_of_read? read?_siteFile).1.inRange_of_isStandard (by decide)
  obtain ⟨hread, hgives, horder⟩ := readFrom_iff_documented (.toml read?_siteFile hnumbers)
    (by simp [siteEntries, Value.given.givenEntries, Value.given])
  obtain ⟨o, ho⟩ := Option.isSome_iff_exists.1 (hread.2 isDocumented_siteEntries)
  obtain ⟨inner, ⟨⟩, hinner⟩ := (hgives o ho).compileOptions
  refine ⟨o, ho, (horder _ _ (.json wellFormed_siteData) alike_siteData).trans ho, ?_, ?_⟩
  · -- the file gives this switch, so it cannot be unset
    obtain ⟨⟨⟩, -⟩ | ⟨b, ⟨⟩, hstrict⟩ :=
      hinner.switches ("strict", o.compileOptions.strict) (by simp [CompileOptions.switches])
    exact hstrict
  · exact hinner.switches ("compat", o.compileOptions.compat) (by simp [CompileOptions.switches])

end PluginOptions

end Stencil
