import Stencil.Proofs.Options.Documented

/-!
# The order of keys

Two values are alike if they differ in the order of the keys of their tables only. Then one is as documented
just if the other is (`PluginOptions.isDocumented_iff_of_alike`), and both give the same options
(`PluginOptions.Gives.of_alike`).
-/

namespace Stencil

namespace Shape

/-- The same value, but for the order of keys. -/
inductive Alike : Shape → Shape → Prop
  | refl (v : Shape) : Alike v v
  | array {items items' : List Shape} (mayBeLonger : Bool) (hlength : items.length = items'.length)
    (h : ∀ i, (hi : i < items.length) → (hi' : i < items'.length) → Alike items[i] items'[i]) :
    Alike (.array items mayBeLonger) (.array items' mayBeLonger)
  | object {members members' : List (String × Shape)}
    (hkeys : (members.map Prod.fst).Perm (members'.map Prod.fst))
    (h : ∀ name v v', (name, v) ∈ members → (name, v') ∈ members' → Alike v v') :
    Alike (.object members) (.object members')

namespace Alike

variable {v v' : Shape} {members members' : List (String × Shape)}

/-- To be alike is symmetric, though its constructors read one side first. -/
theorem symm (h : Alike v v') : Alike v' v := by
  induction h with
  | refl v => exact .refl v
  | array mayBeLonger hlength _ ih =>
    exact .array mayBeLonger hlength.symm fun i hi hi' => ih i hi' hi
  | object hkeys _ ih => exact .object hkeys.symm fun name v v' hv hv' => ih name v' v hv' hv

/-- Two members in the other order. -/
theorem swap {name name' : String} (hne : name ≠ name') {w w' : Shape} (hv : Alike v v')
    (hw : Alike w w') : Alike (.object [(name, v), (name', w)]) (.object [(name', w'), (name, v')]) := by
  refine .object (.swap _ _ _) fun key x x' hx hx' => ?_
  simp only [List.mem_cons, List.not_mem_nil, or_false, Prod.mk.injEq] at hx hx'
  obtain ⟨rfl, rfl⟩ | ⟨rfl, rfl⟩ := hx
  · obtain ⟨heq, -⟩ | ⟨-, rfl⟩ := hx'
    · exact absurd heq hne
    · exact hv
  · obtain ⟨-, rfl⟩ | ⟨heq, -⟩ := hx'
    · exact hw
    · exact absurd heq.symm hne

/-- What is in one table is in the other. -/
theorem exists_mem (h : Alike (.object members) (.object members')) {name : String}
    (hv : (name, v) ∈ members) : ∃ v', (name, v') ∈ members' ∧ Alike v v' := by
  cases h with
  | refl => exact ⟨v, hv, .refl v⟩
  | object hkeys h =>
    have hname : name ∈ members'.map Prod.fst := hkeys.subset (List.mem_map_of_mem hv)
    obtain ⟨⟨_, v'⟩, hv', rfl⟩ := List.mem_map.1 hname
    exact ⟨v', hv', h _ v v' hv hv'⟩

/-- What allows values that are alike does so for all members or none. -/
theorem forall_mem {Allowed : String → Shape → Prop}
    (hallowed : ∀ {name v v'}, Alike v v' → Allowed name v → Allowed name v')
    (h : Alike (.object members) (.object members'))
    (hmembers : ∀ member ∈ members, Allowed member.1 member.2) :
    ∀ member ∈ members', Allowed member.1 member.2 := by
  intro member hmember
  obtain ⟨v, hv, halike⟩ := h.symm.exists_mem hmember
  exact hallowed halike.symm (hmembers _ hv)

theorem eq_null (h : Alike .null v) : v = .null := by
  cases h
  rfl

theorem eq_bool {b : Bool} (h : Alike (.bool b) v) : v = .bool b := by
  cases h
  rfl

theorem eq_text {s : String} (h : Alike (.text s) v) : v = .text s := by
  cases h
  rfl

/-- What is like an object is one. -/
theorem exists_object (h : Alike (.object members) v) : ∃ members', v = .object members' := by
  cases h with
  | refl => exact ⟨_, rfl⟩
  | object => exact ⟨_, rfl⟩

theorem exists_array {items : List Shape} {mayBeLonger : Bool}
    (h : Alike (.array items mayBeLonger) v) : ∃ items', v = .array items' mayBeLonger := by
  cases h with
  | refl => exact ⟨_, rfl⟩
  | array => exact ⟨_, rfl⟩

/-- No array is under a name if none is under it in the other table. -/
theorem array_not_mem (h : Alike (.object members) (.object members')) {name : String}
    (hnone : ∀ items mayBeLonger, (name, Shape.array items mayBeLonger) ∉ members) :
    ∀ items mayBeLonger, (name, Shape.array items mayBeLonger) ∉ members' := by
  intro items mayBeLonger hv
  obtain ⟨v, hv, halike⟩ := h.symm.exists_mem hv
  obtain ⟨items', rfl⟩ := halike.exists_array
  exact hnone items' mayBeLonger hv

theorem isText (h : Alike v v') : v.IsText → v'.IsText := by
  rintro ⟨s, rfl⟩
  exact ⟨s, h.eq_text⟩

theorem isBool (h : Alike v v') : v.IsBool → v'.IsBool := by
  rintro ⟨b, rfl⟩
  exact ⟨b, h.eq_bool⟩

theorem isBoolTable (h : Alike v v') : v.IsBoolTable → v'.IsBoolTable := by
  rintro ⟨members, rfl, hbools⟩
  obtain ⟨members', rfl⟩ := h.exists_object
  exact ⟨members', rfl, h.forall_mem (fun halike => halike.isBool) hbools⟩

/-- A value that may be null. -/
theorem null_or {p q : Prop} (h : Alike v v') (himp : p → q) : v = .null ∨ p → v' = .null ∨ q :=
  Or.imp (fun hnull => (hnull ▸ h).eq_null) himp

/-- Names that are not repeated are not repeated in another order. -/
theorem distinct (h : Alike v v') : v.Distinct → v'.Distinct := by
  -- the keys of the other side are these in another order, so they are distinct too
  induction h with
  | refl => exact id
  | @array items items' mayBeLonger hlength _ ih =>
    rintro (_ | _ | _ | _ | ⟨_, hitems⟩)
    refine .array mayBeLonger fun item hitem => ?_
    obtain ⟨i, hi, rfl⟩ := List.getElem_of_mem hitem
    have hi' : i < items.length := hlength ▸ hi
    exact ih i hi' hi (hitems _ (List.getElem_mem hi'))
  | @object members members' hkeys _ ih =>
    intro hdistinct
    refine .object (hkeys.nodup hdistinct.keys) fun member hmember => ?_
    have hname : member.1 ∈ members.map Prod.fst :=
      hkeys.symm.subset (List.mem_map_of_mem hmember)
    obtain ⟨⟨name, v⟩, hv, rfl⟩ := List.mem_map.1 hname
    exact ih _ v member.2 hv hmember (hdistinct.of_mem hv)

/-- What is looked up in tables without repeated names is alike. -/
theorem lookup (h : Alike (.object members) (.object members'))
    (hdistinct : (Shape.object members).Distinct) (name : String) :
    Option.Rel (fun v v' => Alike v v' ∧ v.Distinct) (members.lookup name)
      (members'.lookup name) := by
  have hkeys := hdistinct.keys
  have hkeys' := (h.distinct hdistinct).keys
  -- with distinct keys a lookup finds just the members, and the members match
  cases hlookup : members.lookup name with
  | some v =>
    have hv := (Sorted.lookup_eq_some_iff_mem hkeys).1 hlookup
    obtain ⟨v', hv', halike⟩ := h.exists_mem hv
    rw [(Sorted.lookup_eq_some_iff_mem hkeys').2 hv']
    exact .some ⟨halike, hdistinct.of_mem hv⟩
  | none =>
    cases hlookup' : members'.lookup name with
    | none => exact .none
    | some v' =>
      have hv' := (Sorted.lookup_eq_some_iff_mem hkeys').1 hlookup'
      obtain ⟨v, hv, -⟩ := h.symm.exists_mem hv'
      rw [(Sorted.lookup_eq_some_iff_mem hkeys).2 hv] at hlookup
      cases hlookup

end Alike

/-- An optional field has the same value by tables that are alike. -/
theorem Sets.of_alike {α : Type} {means : Shape → α → Prop}
    (hmeans : ∀ {v v' a}, Alike v v' → v.Distinct → means v a → means v' a)
    {given given' : Option Shape}
    (h : Option.Rel (fun v v' => Alike v v' ∧ v.Distinct) given given')
    {field : Option α} (hfield : Sets means given field) : Sets means given' field := by
  cases h with
  | none => exact hfield
  | some h =>
    obtain ⟨halike, hdistinct⟩ := h
    obtain ⟨rfl, hunset⟩ | ⟨a, ha, hset⟩ := hfield
    · exact .inl ⟨halike.eq_null, hunset⟩
    · exact .inr ⟨a, hmeans halike hdistinct ha, hset⟩

/-- The order of entries plays no part in which helpers are known. -/
theorem MeansHelpers.of_alike {v v' : Shape} {known : KnownHelpers} (halike : Alike v v')
    (hdistinct : v.Distinct) (h : MeansHelpers v known) : MeansHelpers v' known := by
  obtain ⟨entries, rfl, hentries⟩ := h
  obtain ⟨entries', rfl⟩ := halike.exists_object
  refine ⟨entries', rfl, fun name => ?_⟩
  have hlookup := halike.lookup hdistinct name
  rw [hentries name] at hlookup
  -- name by name; what is found on the other side is the same boolean
  cases hknown : known.entries.lookup name with
  | none =>
    rw [hknown] at hlookup
    generalize entries'.lookup name = given at hlookup
    cases hlookup
    rfl
  | some b =>
    rw [hknown] at hlookup
    generalize entries'.lookup name = given at hlookup
    cases hlookup with
    | some h => rw [h.1.eq_bool, Option.map_some]

end Shape

open Shape

variable {members members' : List (String × Shape)}

namespace CompileOptions

theorem Allows.of_alike {name : String} {v v' : Shape} (halike : Alike v v') (h : Allows name v) :
    Allows name v' := by
  refine ⟨h.1, halike.null_or ?_ h.2⟩
  split
  · exact halike.isBoolTable
  · exact halike.isBool

/-- Nor in whether options are as documented. -/
theorem IsDocumented.of_alike {v v' : Shape} (halike : Alike v v') (h : IsDocumented v) :
    IsDocumented v' := by
  obtain ⟨members, rfl, hmembers⟩ := h
  obtain ⟨members', rfl⟩ := halike.exists_object
  exact ⟨members', rfl, halike.forall_mem Allows.of_alike hmembers⟩

theorem Gives.of_alike {o : CompileOptions} (halike : Alike (.object members) (.object members'))
    (hdistinct : (Shape.object members).Distinct) (h : Gives members o) : Gives members' o where
  switches := fun switch hswitch =>
    Sets.of_alike (fun halike _ hv => (hv ▸ halike).eq_bool)
      (halike.lookup hdistinct switch.1) (h.switches switch hswitch)
  knownHelpers :=
    Sets.of_alike (fun halike hdistinct hv => hv.of_alike halike hdistinct)
      (halike.lookup hdistinct _) h.knownHelpers

end CompileOptions

namespace PluginOptions

theorem Allows.of_alike {name : String} {v v' : Shape} (halike : Alike v v') (h : Allows name v) :
    Allows name v' := by
  unfold Allows at h ⊢
  split at h
  · exact halike.null_or halike.isText h
  · exact halike.null_or halike.isText h
  · exact halike.isBool h
  · exact h.of_alike halike
  · trivial

/-- Whether a table is as documented does not depend on the order of keys. -/
theorem isDocumented_iff_of_alike (halike : Alike (.object members) (.object members')) :
    IsDocumented members ↔ IsDocumented members' :=
  ⟨halike.forall_mem Allows.of_alike, halike.symm.forall_mem Allows.of_alike⟩

/-- Neither does what options it gives. -/
theorem Gives.of_alike {o : PluginOptions} (halike : Alike (.object members) (.object members'))
    (hdistinct : (Shape.object members).Distinct) (h : Gives members o) : Gives members' o where
  templateFileExtension :=
    Sets.of_alike (fun halike _ hv => (hv ▸ halike).eq_text) (halike.lookup hdistinct _)
      h.templateFileExtension
  partialsDirectoryPath :=
    Sets.of_alike (fun halike _ hv => (hv ▸ halike).eq_text) (halike.lookup hdistinct _)
      h.partialsDirectoryPath
  optimizePartialRegistration := by
    have hgiven := h.optimizePartialRegistration
    have hlookup := halike.lookup hdistinct "optimizePartialRegistration"
    -- only what the two lookups found matters, so they are taken apart together
    generalize members.lookup "optimizePartialRegistration" = given at hgiven hlookup
    generalize members'.lookup "optimizePartialRegistration" = given' at hlookup
    cases hlookup with
    | none => exact hgiven
    | some h =>
      cases hgiven
      exact h.1.eq_bool
  compileOptions := by
    obtain ⟨inner, hgiven, hinner⟩ := h.compileOptions
    have hlookup := halike.lookup hdistinct "compileOptions"
    generalize members.lookup "compileOptions" = given at hgiven hlookup
    generalize members'.lookup "compileOptions" = given' at hlookup
    cases hlookup with
    | none => exact ⟨inner, hgiven, hinner⟩
    | some h =>
      obtain ⟨halike, hdistinct⟩ := h
      cases hgiven
      obtain ⟨inner', rfl⟩ := halike.exists_object
      exact ⟨inner', rfl, hinner.of_alike halike hdistinct⟩

end PluginOptions

end Stencil
