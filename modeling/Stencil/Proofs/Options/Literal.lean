import Stencil.Proofs.Json.Object
import Stencil.Proofs.Options.Shape

/-!
# Compile options read back

The literal of compile options is an object of booleans, with one more such object for the known
helpers. It is read as the value of the options (`reads_literal`), whose members come in the order
of their names, and setting the options in that order gives what was written (`ofShape_toJson`). So
different options have different literals (`literal_inj`), and every literal stands on one line
(`oneLine_literal`).
-/

namespace Stencil

/-- Known helpers are the same if every name was entered with the same value last. -/
theorem KnownHelpers.ofList_eq_iff {entered entered' : List (String × Bool)} :
    ofList entered = ofList entered' ↔
      ∀ name, entered.reverse.lookup name = entered'.reverse.lookup name := by
  constructor
  · intro h name
    rw [← Sorted.lookup_ofList, ← Sorted.lookup_ofList]
    exact congrArg (fun known => known.entries.lookup name) h
  · intro h
    unfold ofList
    congr 1
    refine (Sorted.Ascending.ofList entered).eq_of_lookup_eq (Sorted.Ascending.ofList entered') ?_
    intro name
    rw [Sorted.lookup_ofList, Sorted.lookup_ofList, h name]

namespace CompileOptions

/-! ## The options as fields -/

/-- All options, in the order of the literal; none is the value of one that is not set. -/
def fields (o : CompileOptions) : List (String × Option Json) :=
  [("data", o.data.map .bool), ("compat", o.compat.map .bool),
    ("knownHelpers", o.knownHelpers.map KnownHelpers.toJson),
    ("knownHelpersOnly", o.knownHelpersOnly.map .bool), ("noEscape", o.noEscape.map .bool),
    ("strict", o.strict.map .bool), ("assumeObjects", o.assumeObjects.map .bool),
    ("preventIndent", o.preventIndent.map .bool),
    ("ignoreStandalone", o.ignoreStandalone.map .bool),
    ("explicitPartialContext", o.explicitPartialContext.map .bool)]

/-- All options, in the order of their names. -/
def fieldsByName (o : CompileOptions) : List (String × Option Json) :=
  [("assumeObjects", o.assumeObjects.map .bool), ("compat", o.compat.map .bool),
    ("data", o.data.map .bool), ("explicitPartialContext", o.explicitPartialContext.map .bool),
    ("ignoreStandalone", o.ignoreStandalone.map .bool),
    ("knownHelpers", o.knownHelpers.map KnownHelpers.toJson),
    ("knownHelpersOnly", o.knownHelpersOnly.map .bool), ("noEscape", o.noEscape.map .bool),
    ("preventIndent", o.preventIndent.map .bool), ("strict", o.strict.map .bool)]

def present (fields : List (String × Option Json)) : List (String × Json) :=
  fields.filterMap fun (name, value) => value.map (name, ·)

theorem present_nil : present [] = [] := rfl

theorem present_cons (name : String) (value : Option Json) (rest : List (String × Option Json)) :
    present ((name, value) :: rest) = (value.map (name, ·)).toList ++ present rest := by
  cases value <;> rfl

theorem switch_eq (name : String) (value : Option Bool) :
    switch name value = ((value.map Json.bool).map (name, ·)).toList := by
  cases value <;> rfl

/-- The options that are set are the fields that have a value. -/
theorem members_eq_present (o : CompileOptions) : o.members = present o.fields := by
  unfold members fields
  simp only [present_cons, present_nil, switch_eq, List.append_assoc, List.append_nil]
  cases o.knownHelpers with
  | none => rfl
  | some known => rfl

theorem fieldsByName_names (o : CompileOptions) :
    o.fieldsByName.map Prod.fst =
      ["assumeObjects", "compat", "data", "explicitPartialContext", "ignoreStandalone",
        "knownHelpers", "knownHelpersOnly", "noEscape", "preventIndent", "strict"] := rfl

/-- The two arrangements have the same fields. -/
theorem fields_perm (o : CompileOptions) : o.fields.Perm o.fieldsByName := by
  have hnodup : o.fields.Nodup := List.Nodup.of_map Prod.fst (by decide : fieldNames.Nodup)
  have hnodup' : o.fieldsByName.Nodup := by
    refine List.Nodup.of_map Prod.fst ?_
    rw [fieldsByName_names]
    decide
  -- each name stands in both once, so it is enough that the same fields are there
  refine (List.perm_ext_iff_of_nodup hnodup hnodup').2 fun field => ?_
  simp only [fields, fieldsByName, List.mem_cons, List.not_mem_nil]
  grind

/-- Leaving fields out keeps the order of the others. -/
theorem present_names_sublist (fields : List (String × Option Json)) :
    ((present fields).map Prod.fst).Sublist (fields.map Prod.fst) := by
  induction fields with
  | nil => exact .slnil
  | cons field rest ih =>
    obtain ⟨name, value⟩ := field
    cases value with
    | none => exact ih.cons name
    | some x => exact ih.cons_cons name

/-- The fields are listed in ascending order of names, so those that have a value are too. -/
theorem ascending_present (o : CompileOptions) : Sorted.Ascending (present o.fieldsByName) := by
  have hnames : (o.fieldsByName.map Prod.fst).Pairwise (· < ·) := by
    rw [fieldsByName_names]
    decide
  exact List.pairwise_map.1 (hnames.sublist (present_names_sublist o.fieldsByName))

/-- The members of the value are the options that are set, in the order of their names. -/
theorem toJson_eq (o : CompileOptions) : o.toJson = .object (present o.fieldsByName) := by
  have hperm : o.members.Perm (present o.fieldsByName) := by
    rw [members_eq_present]
    exact o.fields_perm.filterMap _
  show Json.object (Sorted.ofList o.members) = _
  rw [Sorted.ofList_eq_of_perm o.ascending_present hperm]

/-- Every value that is set is a boolean or the object of the known helpers. -/
theorem value_of_mem_members {o : CompileOptions} {member : String × Json}
    (h : member ∈ o.members) :
    (∃ b, member.2 = .bool b) ∨ ∃ known : KnownHelpers, member.2 = known.toJson := by
  rw [members_eq_present] at h
  obtain ⟨field, hfield, hvalue⟩ := List.mem_filterMap.1 h
  obtain ⟨x, hx, rfl⟩ := Option.map_eq_some_iff.1 hvalue
  -- every field but one is a switch
  have hbool : ∀ switch : Option Bool, switch.map Json.bool = some x → ∃ b, x = .bool b := by
    intro switch hswitch
    obtain ⟨b, -, rfl⟩ := Option.map_eq_some_iff.1 hswitch
    exact ⟨b, rfl⟩
  simp only [fields, List.mem_cons, List.not_mem_nil, or_false] at hfield
  rcases hfield with rfl | rfl | rfl | rfl | rfl | rfl | rfl | rfl | rfl | rfl
  case inr.inr.inl =>
    obtain ⟨known, -, rfl⟩ := Option.map_eq_some_iff.1 hx
    exact .inr ⟨known, rfl⟩
  all_goals exact .inl (hbool _ hx)

/-! ## Setting the options -/

open Shape

/-- Setting the options that have a value, one after the other, from those already set. -/
def setAll (o : CompileOptions) (fields : List (String × Option Json)) :
    Except ShapeError CompileOptions :=
  (ofJson.ofMembers (present fields)).foldlM
    (fun o (name, value) => setCompileOption o name value) o

/-- One option is set, if it has a value, and the rest follows. `put` changes the options as setting
this one does. -/
theorem setAll_cons {β : Type} {o : CompileOptions} {name : String} {encode : β → Json}
    (put : Option β → CompileOptions → CompileOptions) (hunset : put none o = o)
    (hset : ∀ b, setCompileOption o name (ofJson (encode b)) = .ok (put (some b) o))
    (value : Option β) (rest : List (String × Option Json)) :
    setAll o ((name, value.map encode) :: rest) = setAll (put value o) rest := by
  cases value with
  | none =>
    rw [hunset]
    rfl
  | some b =>
    show (setCompileOption o name (ofJson (encode b))).bind _ = _
    rw [hset b]
    rfl

/-- Known helpers are read back. -/
theorem asKnownHelpers_toJson (known : KnownHelpers) :
    asKnownHelpers (ofJson known.toJson) = .ok known := by
  have hsorted : KnownHelpers.ofList known.entries = known := by
    obtain ⟨entries, hascending⟩ := known
    unfold KnownHelpers.ofList
    simp only [Sorted.ofList_eq_self hascending]
  refine asKnownHelpers_eq_ok_iff.2 ⟨known.entries, ?_, hsorted.symm⟩
  rw [KnownHelpers.toJson, ofJson, ofMembers_eq_map, List.map_map]
  rfl

/-- Known helpers that were written as an object are read back to themselves. -/
theorem setCompileOption_knownHelpers (o : CompileOptions) (known : KnownHelpers) :
    setCompileOption o "knownHelpers" (ofJson known.toJson) =
      .ok { o with knownHelpers := known } := by
  have h := asKnownHelpers_toJson known
  show (((asKnownHelpers (ofJson known.toJson)).map some).bind fun known => _) = _
  rw [h]
  rfl

/-- Setting what the options say gives the options. -/
theorem setAll_fieldsByName (o : CompileOptions) : setAll {} o.fieldsByName = .ok o := by
  -- one step for each option; after the last all of them are those of `o`
  refine (setAll_cons (fun v o => { o with assumeObjects := v }) rfl (fun _ => rfl) _ _).trans ?_
  refine (setAll_cons (fun v o => { o with compat := v }) rfl (fun _ => rfl) _ _).trans ?_
  refine (setAll_cons (fun v o => { o with data := v }) rfl (fun _ => rfl) _ _).trans ?_
  refine (setAll_cons (fun v o => { o with explicitPartialContext := v }) rfl
    (fun _ => rfl) _ _).trans ?_
  refine (setAll_cons (fun v o => { o with ignoreStandalone := v }) rfl (fun _ => rfl) _ _).trans ?_
  refine (setAll_cons (fun v o => { o with knownHelpers := v }) rfl
    (setCompileOption_knownHelpers _) _ _).trans ?_
  refine (setAll_cons (fun v o => { o with knownHelpersOnly := v }) rfl (fun _ => rfl) _ _).trans ?_
  refine (setAll_cons (fun v o => { o with noEscape := v }) rfl (fun _ => rfl) _ _).trans ?_
  refine (setAll_cons (fun v o => { o with preventIndent := v }) rfl (fun _ => rfl) _ _).trans ?_
  exact setAll_cons (fun v o => { o with strict := v }) rfl (fun _ => rfl) _ _

/-- Compile options are read back from their value. -/
theorem ofShape_toJson (o : CompileOptions) : ofShape (ofJson o.toJson) = .ok o := by
  rw [toJson_eq]
  exact o.setAll_fieldsByName

/-! ## The literal -/

/-- The text of known helpers is read back as the same object. -/
theorem reads_knownHelpers (depth : Nat) (known : KnownHelpers) :
    Json.Reads (Json.readValue (depth + 1)) (Json.compact known.toJson).toList known.toJson := by
  have hascending : Sorted.Ascending (known.entries.map (Prod.map id Json.bool)) :=
    List.pairwise_map.2 known.ascending
  -- known helpers are in ascending order already, so making the object changes nothing
  have hmembers : Json.ofMembers (known.entries.map (Prod.map id Json.bool)) = known.toJson := by
    unfold Json.ofMembers
    rw [Sorted.ofList_eq_self hascending]
    rfl
  have hreads : Json.Reads (Json.readValue (depth + 1)) (Json.compact known.toJson).toList
      (Json.ofMembers (known.entries.map (Prod.map id Json.bool))) := by
    refine Json.reads_object fun member hmember => ?_
    obtain ⟨entry, -, rfl⟩ := List.mem_map.1 hmember
    exact Json.reads_bool depth entry.2
  rw [hmembers] at hreads
  exact hreads

/-- The literal is read as the value of the options. -/
theorem reads_literal (depth : Nat) (o : CompileOptions) :
    Json.Reads (Json.readValue (depth + 2)) o.literal.toList o.toJson := by
  rw [literal_eq]
  refine Json.reads_object fun member hmember => ?_
  obtain ⟨b, hb⟩ | ⟨known, hknown⟩ := value_of_mem_members hmember
  · rw [hb]
    exact Json.reads_bool (depth + 1) b
  · rw [hknown]
    exact reads_knownHelpers depth known

/-- The literal stands on one line. -/
theorem oneLine_literal (o : CompileOptions) : Json.OneLine o.literal.toList := by
  have hbool : ∀ b, Json.OneLine (Json.compact (.bool b)).toList := by decide
  rw [literal_eq]
  refine Json.oneLine_object fun member hmember => ?_
  obtain ⟨b, hb⟩ | ⟨known, hknown⟩ := value_of_mem_members hmember
  · rw [hb]
    exact hbool b
  · rw [hknown]
    refine Json.oneLine_object fun helper hhelper => ?_
    obtain ⟨entry, -, rfl⟩ := List.mem_map.1 hhelper
    exact hbool entry.2

/-- A literal of options does not break the line that it stands in. -/
theorem newline_not_mem_literal (o : CompileOptions) : '\n' ∉ o.literal.toList :=
  o.oneLine_literal.newline_not_mem

theorem read?_literal (o : CompileOptions) : Json.read? o.literal.toList = some o.toJson :=
  (reads_literal 125 o).read?_eq

/-- The literal says what the options are. -/
theorem literal_inj {a b : CompileOptions} : a.literal = b.literal ↔ a = b := by
  refine ⟨fun h => ?_, congrArg literal⟩
  have hread : some a.toJson = some b.toJson := by
    rw [← read?_literal, h, read?_literal]
  have hshape : ofShape (ofJson a.toJson) = ofShape (ofJson b.toJson) := by
    rw [Option.some.inj hread]
  rw [ofShape_toJson, ofShape_toJson] at hshape
  exact Except.ok.inj hshape

/-- An option is named at most once. -/
theorem nodup_members (o : CompileOptions) : (o.members.map Prod.fst).Nodup := by
  rw [members_eq_present]
  have hnames : (o.fields.map Prod.fst).Nodup := (by decide : fieldNames.Nodup)
  exact hnames.sublist (present_names_sublist o.fields)

/-- **The literal is faithful and canonical.** The options are always written, so the literal never is
the empty object in place of a failure. It is a value on one line, which names no option twice and is
read back as the options. Two literals are the same only for the same options, and known helpers are
the same if every name was entered with the same value last, in whatever order the names came. -/
theorem literal_canonical :
    (∀ o : CompileOptions, o.datum.write = .ok o.literal ∧
      Json.OneLine o.literal.toList ∧ (o.members.map Prod.fst).Nodup ∧
      ∃ value, Json.read? o.literal.toList = some value ∧ ofShape (ofJson value) = .ok o) ∧
    (∀ a b : CompileOptions, a.literal = b.literal ↔ a = b) ∧
    ∀ (o : CompileOptions) (entered entered' : List (String × Bool)),
      { o with knownHelpers := some (.ofList entered) : CompileOptions }.literal =
          { o with knownHelpers := some (.ofList entered') : CompileOptions }.literal ↔
        ∀ name, entered.reverse.lookup name = entered'.reverse.lookup name := by
  -- the literal of one value, then of two, then the order of known helpers
  refine ⟨fun o => ⟨?_, o.oneLine_literal, o.nodup_members, ?_⟩, fun _ _ => literal_inj,
    fun o entered entered' => ?_⟩
  · rw [literal_eq]
    exact Json.Datum.write_ofJson _
  · exact ⟨o.toJson, o.read?_literal, o.ofShape_toJson⟩
  · rw [literal_inj, ← KnownHelpers.ofList_eq_iff]
    constructor
    · intro h
      exact Option.some.inj (congrArg knownHelpers h)
    · intro h
      rw [h]

end CompileOptions

end Stencil
