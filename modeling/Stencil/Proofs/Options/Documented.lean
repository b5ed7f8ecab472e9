import Stencil.Options.Toml
import Stencil.Proofs.Options.Shape

/-!
# The documented shape of options

What a table of options may hold (`Allows`, `IsDocumented`) and what options it gives (`Gives`) is stated
here without reference to the readers. The readers take just the tables that are as documented
(`CompileOptions.exists_ofShape_iff`, `PluginOptions.exists_ofShape_iff`), and read them as the options that
they give (`CompileOptions.gives_of_ofShape`, `PluginOptions.gives_of_ofShape`); no table gives two
(`PluginOptions.Gives.unique`).
-/

namespace Stencil

open Shape

variable {members : List (String × Shape)} {name : String} {v : Shape}

namespace CompileOptions

variable {o o' : CompileOptions}

/-- What a member may be: known helpers are a table of booleans, and each other option is a boolean. -/
def Allows (name : String) (v : Shape) : Prop :=
  name ∈ fieldNames ∧ (v = .null ∨ if name = "knownHelpers" then v.IsBoolTable else v.IsBool)

/-- A table with nothing in it but compile options. -/
def IsDocumented (v : Shape) : Prop :=
  ∃ members, v = .object members ∧ ∀ member ∈ members, Allows member.1 member.2

theorem Allows.ignored (h : Allows name v) : v.ignored = .ok () := by
  refine ignored_of_null_or ?_ h.2
  split
  · exact IsBoolTable.ignored
  · exact IsBool.ignored

/-- Options as documented hold no number, so none that is out of range. -/
theorem IsDocumented.ignored : IsDocumented v → v.ignored = .ok () := by
  rintro ⟨members, rfl, hmembers⟩
  exact ignored_object_iff.2 fun member hmember => (hmembers member hmember).ignored

/-- Each switch has the value under its name, and so have the known helpers. -/
structure Gives (members : List (String × Shape)) (o : CompileOptions) : Prop where
  switches : ∀ switch ∈ o.switches,
    Sets (fun v b => v = .bool b) (members.lookup switch.1) switch.2
  knownHelpers : Sets MeansHelpers (members.lookup "knownHelpers") o.knownHelpers

/-- Options are their switches and known helpers. -/
theorem eq_of_switches (hswitches : o.switches = o'.switches)
    (hknown : o.knownHelpers = o'.knownHelpers) : o = o' := by
  cases o
  cases o'
  simp_all [switches]

/-- The options are the known helpers and the switches, by name. -/
theorem mem_fieldNames_iff :
    name ∈ fieldNames ↔ name = "knownHelpers" ∨ name ∈ o.switches.map Prod.fst := by
  simp only [fieldNames, switches, List.map_cons, List.map_nil, List.mem_cons, List.not_mem_nil]
  grind

/-- Either the known helpers are set, or a switch. -/
theorem setCompileOption_cases (h : setCompileOption o name v = .ok o') :
    (name = "knownHelpers" ∧ optional asKnownHelpers v = .ok o'.knownHelpers ∧
        o'.switches = o.switches) ∨
      ∃ b, optional asBool v = .ok b ∧ o'.knownHelpers = o.knownHelpers ∧
        name ∈ o.switches.map Prod.fst ∧
        o'.switches = o.switches.map fun switch => if switch.1 = name then (name, b) else switch := by
  unfold setCompileOption at h
  -- the third name is that of the known helpers, and the last case is any other name
  split at h
  case h_3 =>
    obtain ⟨known, hknown, ho'⟩ := bind_eq_ok_iff.1 h
    cases ho'
    exact .inl ⟨rfl, hknown, rfl⟩
  case h_11 => cases h
  all_goals
    obtain ⟨b, hb, ho'⟩ := bind_eq_ok_iff.1 h
    cases ho'
    exact .inr ⟨b, hb, rfl, by simp [switches], by simp [switches]⟩

/-- Whether a member can be set does not depend on the options that it is set in. -/
theorem exists_setCompileOption_iff (o : CompileOptions) :
    (∃ o', setCompileOption o name v = .ok o') ↔ Allows name v := by
  have hbool : (∃ b, optional asBool v = .ok b) ↔ v = .null ∨ v.IsBool := by
    rw [exists_optional_iff asBool_null, exists_asBool_iff]
  have hknown : (∃ known, optional asKnownHelpers v = .ok known) ↔ v = .null ∨ v.IsBoolTable := by
    rw [exists_optional_iff asKnownHelpers_null, exists_asKnownHelpers_iff]
  constructor
  · -- what was set tells which option it is; the other way round, each name is set by its own case
    rintro ⟨o', h⟩
    obtain ⟨rfl, hset, -⟩ | ⟨b, hset, -, hname, -⟩ := setCompileOption_cases h
    · exact ⟨by decide, hknown.1 ⟨_, hset⟩⟩
    · have hne : name ≠ "knownHelpers" := by
        rintro rfl
        simp [switches] at hname
      refine ⟨mem_fieldNames_iff.2 (.inr hname), ?_⟩
      rw [if_neg hne]
      exact hbool.1 ⟨b, hset⟩
  · rintro ⟨hname, hv⟩
    split at hv
    · rename_i heq
      obtain ⟨known, hset⟩ := hknown.2 hv
      subst heq
      exact ⟨_, bind_eq_ok_iff.2 ⟨known, hset, rfl⟩⟩
    · rename_i hne
      obtain ⟨b, hset⟩ := hbool.2 hv
      have hswitch := (mem_fieldNames_iff (o := o)).1 hname
      simp only [switches, List.map_cons, List.map_nil, List.mem_cons, List.not_mem_nil, hne,
        false_or, or_false] at hswitch
      rcases hswitch with rfl | rfl | rfl | rfl | rfl | rfl | rfl | rfl | rfl <;>
        exact ⟨_, bind_eq_ok_iff.2 ⟨b, hset, rfl⟩⟩

theorem ofShape_object (members : List (String × Shape)) :
    ofShape (.object members) =
      members.foldlM (fun o member => setCompileOption o member.1 member.2) {} := rfl

/-- Compile options that are not given as an array are read just if they are as documented. -/
theorem exists_ofShape_iff (harray : ∀ items longer, v ≠ .array items longer) :
    (∃ o, ofShape v = .ok o) ↔ IsDocumented v := by
  cases v with
  | object members =>
    rw [ofShape_object, exists_foldlM_iff Allows fun o _ _ => exists_setCompileOption_iff o]
    simp only [IsDocumented, Shape.object.injEq, exists_eq_left']
  | array items longer => exact absurd rfl (harray items longer)
  | _ => simp [ofShape, record, wrong, IsDocumented]

section Set

variable (hdistinct : (Shape.object members).Distinct)
  (h : members.foldlM (fun o member => setCompileOption o member.1 member.2) {} = .ok o)

include hdistinct h

/-- After all members have been set, a switch is what its member says, and not set without one. -/
theorem sets_switch {b : Option Bool} (hswitch : (name, b) ∈ o.switches) :
    Sets (fun v b => v = .bool b) (members.lookup name) b := by
  -- its member sets the switch to what is read, and no other member touches it
  refine sets_of_foldlM (fun (o : CompileOptions) b => (name, b) ∈ o.switches) asBool_null ?_ ?_
    hdistinct.keys (fun _ _ _ => asBool_eq_ok_iff.1) ?_ h hswitch
  · intro o v o' b hset hb
    obtain ⟨rfl, -, -⟩ | ⟨given, hgiven, -, -, hswitches⟩ := setCompileOption_cases hset
    · simp [switches] at hb
    · rw [hswitches] at hb
      obtain ⟨switch, -, heq⟩ := List.mem_map.1 hb
      split at heq
      · cases heq
        exact hgiven
      · rename_i hne
        exact absurd (congrArg Prod.fst heq) hne
  · intro o other v o' b hne hset hb
    obtain ⟨-, -, hswitches⟩ | ⟨given, -, -, -, hswitches⟩ := setCompileOption_cases hset
    · rwa [hswitches] at hb
    · rw [hswitches] at hb
      obtain ⟨switch, hswitch, heq⟩ := List.mem_map.1 hb
      split at heq
      · exact absurd (congrArg Prod.fst heq) hne
      · exact heq ▸ hswitch
  · intro b hb
    simp only [switches, List.mem_cons, Prod.mk.injEq, List.not_mem_nil, or_false] at hb
    grind

/-- Likewise for the known helpers. -/
theorem sets_knownHelpers : Sets MeansHelpers (members.lookup "knownHelpers") o.knownHelpers := by
  refine sets_of_foldlM (fun (o : CompileOptions) known => o.knownHelpers = known)
    asKnownHelpers_null ?_ ?_ hdistinct.keys
    (fun v hv known => meansHelpers_of_asKnownHelpers (hdistinct.of_mem hv))
    (fun known hnone => hnone.symm) h rfl
  · rintro o v o' known hset rfl
    obtain ⟨-, hknown, -⟩ | ⟨b, -, -, hname, -⟩ := setCompileOption_cases hset
    · exact hknown
    · simp [switches] at hname
  · rintro o other v o' known hne hset rfl
    obtain ⟨heq, -, -⟩ | ⟨b, -, hsame, -, -⟩ := setCompileOption_cases hset
    · exact absurd heq hne
    · exact hsame.symm

end Set

/-- Compile options are read as what their table gives. -/
theorem gives_of_ofShape (hdistinct : (Shape.object members).Distinct)
    (h : ofShape (.object members) = .ok o) : Gives members o where
  switches _ hswitch := sets_switch hdistinct h hswitch
  knownHelpers := sets_knownHelpers hdistinct h

/-- A table gives one value of the options. -/
theorem Gives.unique (h : Gives members o) (h' : Gives members o') : o = o' := by
  refine eq_of_switches ?_ ?_
  · exact eq_of_names (fun name b => Sets (fun v b => v = .bool b) (members.lookup name) b)
      (fun _ _ _ => Sets.unique_of_eq nofun fun _ _ => Shape.bool.inj) rfl h.switches h'.switches
  · refine Sets.unique ?_ (fun _ _ _ hv hv' => hv.unique hv') h.knownHelpers h'.knownHelpers
    rintro known ⟨entries, hnull, -⟩
    cases hnull

end CompileOptions

namespace PluginOptions

variable {o o' : PluginOptions}

/-- What a member may be. Members that are not options may be anything. -/
def Allows : (name : String) → (v : Shape) → Prop
  | "templateFileExtension", v => v = .null ∨ v.IsText
  | "partialsDirectoryPath", v => v = .null ∨ v.IsText
  | "optimizePartialRegistration", v => v.IsBool
  | "compileOptions", v => CompileOptions.IsDocumented v
  | _, _ => True

/-- Each option in the table is what it may be. -/
def IsDocumented (members : List (String × Shape)) : Prop :=
  ∀ member ∈ members, Allows member.1 member.2

/-- Each option has the value under its name, or else its default. Compile options that are absent are those of
an empty table. -/
structure Gives (members : List (String × Shape)) (o : PluginOptions) : Prop where
  templateFileExtension :
    Sets (fun v s => v = .text s) (members.lookup "templateFileExtension") o.templateFileExtension
  partialsDirectoryPath :
    Sets (fun v s => v = .text s) (members.lookup "partialsDirectoryPath") o.partialsDirectoryPath
  optimizePartialRegistration :
    (members.lookup "optimizePartialRegistration").getD (.bool false) =
      .bool o.optimizePartialRegistration
  compileOptions :
    ∃ inner, (members.lookup "compileOptions").getD (.object []) = .object inner ∧
      CompileOptions.Gives inner o.compileOptions

/-- A table gives one value of the options. -/
theorem Gives.unique (h : Gives members o) (h' : Gives members o') : o = o' := by
  obtain ⟨hextension, hdirectory, hoptimize, inner, hinner, hcompile⟩ := h
  obtain ⟨hextension', hdirectory', hoptimize', inner', hinner', hcompile'⟩ := h'
  have hextension := Sets.unique_of_eq nofun (fun _ _ => Shape.text.inj) hextension hextension'
  have hdirectory := Sets.unique_of_eq nofun (fun _ _ => Shape.text.inj) hdirectory hdirectory'
  have hoptimize := Shape.bool.inj (hoptimize.symm.trans hoptimize')
  cases hinner.symm.trans hinner'
  have hcompile := hcompile.unique hcompile'
  cases o
  cases o'
  simp_all

/-- One option is set, or the member is none and its value is passed over. -/
theorem setPluginOption_cases (h : setPluginOption o name v = .ok o') :
    (name = "templateFileExtension" ∧
        ∃ s, optional (asText "a string") v = .ok s ∧ o' = { o with templateFileExtension := s }) ∨
      (name = "partialsDirectoryPath" ∧
        ∃ s, optional (asText "path string") v = .ok s ∧ o' = { o with partialsDirectoryPath := s }) ∨
      (name = "optimizePartialRegistration" ∧
        ∃ b, asBool v = .ok b ∧ o' = { o with optimizePartialRegistration := b }) ∨
      (name = "compileOptions" ∧
        ∃ inner, CompileOptions.ofShape v = .ok inner ∧ o' = { o with compileOptions := inner }) ∨
      (name ∉ fieldNames ∧ v.ignored = .ok () ∧ o' = o) := by
  -- one case for each option, and one for names that are none
  unfold setPluginOption at h
  split at h <;> obtain ⟨a, ha, ho'⟩ := bind_eq_ok_iff.1 h <;> cases ho'
  · exact .inl ⟨rfl, a, ha, rfl⟩
  · exact .inr (.inl ⟨rfl, a, ha, rfl⟩)
  · exact .inr (.inr (.inl ⟨rfl, a, ha, rfl⟩))
  · exact .inr (.inr (.inr (.inl ⟨rfl, a, ha, rfl⟩)))
  · rename_i hextension hdirectory hoptimize hcompile
    have hother : name ∉ fieldNames := by
      simpa [fieldNames] using ⟨hextension, hdirectory, hoptimize, hcompile⟩
    exact .inr (.inr (.inr (.inr ⟨hother, ha, rfl⟩)))

/-- Whether a member can be set does not depend on the options that it is set in. A number out of range
cannot be passed over. -/
theorem exists_setPluginOption_iff
    (harray : name = "compileOptions" → ∀ items longer, v ≠ .array items longer)
    (o : PluginOptions) :
    (∃ o', setPluginOption o name v = .ok o') ↔ Allows name v ∧ v.ignored = .ok () := by
  have htext (expected : String) :
      (∃ s, optional (asText expected) v = .ok s) ↔ v = .null ∨ v.IsText := by
    rw [exists_optional_iff (asText_null expected), exists_asText_iff]
  -- what is a text, a boolean or compile options as documented is passed over as well
  have hand {p : Prop} (himp : p → v.ignored = .ok ()) : p ↔ p ∧ v.ignored = .ok () :=
    (and_iff_left_of_imp himp).symm
  unfold setPluginOption Allows
  split
  · exact exists_bind_pure_iff.trans ((htext _).trans (hand (ignored_of_null_or IsText.ignored)))
  · exact exists_bind_pure_iff.trans ((htext _).trans (hand (ignored_of_null_or IsText.ignored)))
  · exact exists_bind_pure_iff.trans (exists_asBool_iff.trans (hand IsBool.ignored))
  · exact exists_bind_pure_iff.trans
      ((CompileOptions.exists_ofShape_iff (harray rfl)).trans (hand CompileOptions.IsDocumented.ignored))
  · rw [exists_bind_pure_iff]
    simp only [true_and]
    exact ⟨fun ⟨_, hignored⟩ => hignored, fun hignored => ⟨(), hignored⟩⟩

theorem ofShape_object (members : List (String × Shape)) :
    ofShape (.object members) =
      members.foldlM (fun o member => setPluginOption o member.1 member.2) {} := rfl

/-- Options are read just if they are as documented and no number among them is out of range, unless the
compile options are given as an array. -/
theorem exists_ofShape_iff
    (harray : ∀ items longer, ("compileOptions", Shape.array items longer) ∉ members) :
    (∃ o, ofShape (.object members) = .ok o) ↔
      IsDocumented members ∧ (Shape.object members).ignored = .ok () := by
  -- an array would be read item by item instead, so it is left aside
  have hset (o : PluginOptions) (member : String × Shape) (hmember : member ∈ members) :
      (∃ o', setPluginOption o member.1 member.2 = .ok o') ↔
        Allows member.1 member.2 ∧ member.2.ignored = .ok () := by
    refine exists_setPluginOption_iff (fun hname items longer hv => ?_) o
    obtain ⟨name, v⟩ := member
    cases hname
    cases hv
    exact harray items longer hmember
  rw [ofShape_object, ignored_object_iff,
    exists_foldlM_iff (fun name v => Allows name v ∧ v.ignored = .ok ()) hset]
  constructor
  · exact fun h => ⟨fun member hmember => (h member hmember).1, fun member hmember =>
      (h member hmember).2⟩
  · exact fun h member hmember => ⟨h.1 member hmember, h.2 member hmember⟩

section Set

variable (hdistinct : (Shape.object members).Distinct)
  (h : members.foldlM (fun o member => setPluginOption o member.1 member.2) {} = .ok o)

include hdistinct h

theorem sets_templateFileExtension :
    Sets (fun v s => v = .text s) (members.lookup "templateFileExtension")
      o.templateFileExtension := by
  refine sets_of_foldlM (fun (o : PluginOptions) s => o.templateFileExtension = s)
    (asText_null "a string") ?_ ?_ hdistinct.keys (fun _ _ _ => asText_eq_ok_iff.1)
    (fun _ hnone => hnone.symm) h rfl
  · rintro o v o' s hset rfl
    have hcases := setPluginOption_cases hset
    grind [fieldNames]
  · rintro o other v o' s hne hset rfl
    have hcases := setPluginOption_cases hset
    grind

theorem sets_partialsDirectoryPath :
    Sets (fun v s => v = .text s) (members.lookup "partialsDirectoryPath")
      o.partialsDirectoryPath := by
  refine sets_of_foldlM (fun (o : PluginOptions) s => o.partialsDirectoryPath = s)
    (asText_null "path string") ?_ ?_ hdistinct.keys (fun _ _ _ => asText_eq_ok_iff.1)
    (fun _ hnone => hnone.symm) h rfl
  · rintro o v o' s hset rfl
    have hcases := setPluginOption_cases hset
    grind [fieldNames]
  · rintro o other v o' s hne hset rfl
    have hcases := setPluginOption_cases hset
    grind

/-- This option has a default, so an unset member means false. -/
theorem sets_optimizePartialRegistration :
    (members.lookup "optimizePartialRegistration").getD (.bool false) =
      .bool o.optimizePartialRegistration := by
  -- only the member of this name changes the field
  have hfield := field_of_foldlM (fun (o : PluginOptions) b => o.optimizePartialRegistration = b)
    "optimizePartialRegistration" asBool ?_ ?_ hdistinct.keys h rfl
  · cases hlookup : members.lookup "optimizePartialRegistration" with
    | none =>
      rw [hlookup] at hfield
      exact congrArg Shape.bool hfield
    | some v =>
      rw [hlookup] at hfield
      exact asBool_eq_ok_iff.1 hfield
  · rintro o v o' b hset rfl
    have hcases := setPluginOption_cases hset
    grind [fieldNames]
  · rintro o other v o' b hne hset rfl
    have hcases := setPluginOption_cases hset
    grind

/-- The compile options are read from their own table, an empty one if it is not given. -/
theorem sets_compileOptions
    (harray : ∀ items longer, ("compileOptions", Shape.array items longer) ∉ members) :
    ∃ inner, (members.lookup "compileOptions").getD (.object []) = .object inner ∧
      CompileOptions.Gives inner o.compileOptions := by
  have hfield := field_of_foldlM (fun (o : PluginOptions) inner => o.compileOptions = inner)
    "compileOptions" CompileOptions.ofShape ?_ ?_ hdistinct.keys h rfl
  · cases hlookup : members.lookup "compileOptions" with
    | none =>
      rw [hlookup] at hfield
      have hempty : CompileOptions.Gives [] {} :=
        CompileOptions.gives_of_ofShape (.object List.nodup_nil nofun) rfl
      exact ⟨[], rfl, hfield ▸ hempty⟩
    | some v =>
      rw [hlookup] at hfield
      have hv := (Sorted.lookup_eq_some_iff_mem hdistinct.keys).1 hlookup
      have hread : ∃ inner, CompileOptions.ofShape v = .ok inner := ⟨_, hfield⟩
      obtain ⟨inner, rfl, -⟩ := (CompileOptions.exists_ofShape_iff fun items longer heq =>
        harray items longer (heq ▸ hv)).1 hread
      exact ⟨inner, rfl, CompileOptions.gives_of_ofShape (hdistinct.of_mem hv) hfield⟩
  · rintro o v o' inner hset rfl
    have hcases := setPluginOption_cases hset
    grind [fieldNames]
  · rintro o other v o' inner hne hset rfl
    have hcases := setPluginOption_cases hset
    grind

end Set

/-- Options are read as what their table gives. -/
theorem gives_of_ofShape (hdistinct : (Shape.object members).Distinct)
    (harray : ∀ items longer, ("compileOptions", Shape.array items longer) ∉ members)
    (h : ofShape (.object members) = .ok o) : Gives members o where
  templateFileExtension := sets_templateFileExtension hdistinct h
  partialsDirectoryPath := sets_partialsDirectoryPath hdistinct h
  optimizePartialRegistration := sets_optimizePartialRegistration hdistinct h
  compileOptions := sets_compileOptions hdistinct h harray

end PluginOptions

end Stencil
