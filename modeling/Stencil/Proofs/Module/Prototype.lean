import Stencil.Proofs.Module.Runtime

/-!
# Partials in a plain object

A runtime that keeps its partials in a plain object does not quite keep a map: what is read under a name
that was never assigned may be a member that all objects inherit, and such a member passes for a
registered partial where a guard tests the name. Here a module is executed with an object whose own
properties are the templates that were assigned to it, and which inherits some members.

* **`lookup_foldlM_guarded`**, **`lookup_foldlM_unguarded`**: what registrations leave, by induction on
  the list of partials, from what one of them does.
* **`guarded_passes_over_inherited`**: a guarded module registers just the partials whose names are not
  inherited, where an unguarded one registers all.
-/

namespace Stencil

/-- The names of the members that a new object inherits. -/
def inheritedMembers : List String :=
  ["constructor", "__defineGetter__", "__defineSetter__", "hasOwnProperty", "__lookupGetter__",
    "__lookupSetter__", "isPrototypeOf", "propertyIsEnumerable", "toString", "valueOf", "__proto__",
    "toLocaleString"]

/-- What reading a property gives: a template that was assigned, an inherited member, or nothing. -/
inductive Property where
  | own (t : CheckedTemplate)
  | inherited
  | undefined

/-- Whether a property passes a test. Templates and inherited members do. -/
def Property.truthy : Property → Bool
  | own _ => true
  | inherited => true
  | undefined => false

abbrev PlainObject := Finmap fun _ : String => CheckedTemplate

namespace PlainObject

variable (members : List String)

/-- An own property goes before an inherited one. -/
def read (object : PlainObject) (name : String) : Property :=
  match object.lookup name with
  | some t => .own t
  | none => if name ∈ members then .inherited else .undefined

/-- With a property assigned. Assigning `__proto__` is not assigning a property, and what it does is
not told here. -/
def assign (object : PlainObject) (name : String) (t : CheckedTemplate) : Option PlainObject :=
  if name = "__proto__" then none else some (object.insert name t)

/-- A registration; it is skipped if what is tested is truthy. -/
def execute (object : PlainObject) (s : Module.Statement) : Option PlainObject :=
  match s.tested with
  | some tested =>
    if (object.read members tested).truthy then some object else object.assign s.name s.template
  | none => object.assign s.name s.template

def load (object : PlainObject) (text : String) : Option PlainObject :=
  (Module.read? text).bind fun listing => listing.statements.foldlM (execute members) object

variable {members}

/-- A guard finds something if the name is registered, or if every object inherits a member of that
name. -/
theorem truthy_read (object : PlainObject) (name : String) :
    (object.read members name).truthy = true ↔ (object.lookup name).isSome = true ∨ name ∈ members := by
  unfold read
  cases object.lookup name with
  | some t => exact iff_of_true rfl (.inl rfl)
  | none =>
    by_cases hinherited : name ∈ members
    · simp [hinherited, Property.truthy]
    · simp [hinherited, Property.truthy]

/-- An assignment binds its name and no other; only `__proto__` cannot be assigned so. -/
theorem exists_assign (object : PlainObject) {name : String} (hname : name ≠ "__proto__")
    (t : CheckedTemplate) :
    ∃ after, object.assign name t = some after ∧
      ∀ other, after.lookup other = if other = name then some t else object.lookup other :=
  ⟨object.insert name t, if_neg hname, Runtime.lookup_insert object name t⟩

/-! ## One registration -/

/-- A guarded registration binds its name, unless it is bound or inherited. -/
theorem exists_execute_guarded (object : PlainObject) {name : String} (hname : name ≠ "__proto__")
    (t : CheckedTemplate) :
    ∃ after, object.execute members (Module.statement true name t) = some after ∧
      ∀ other, after.lookup other =
        (object.lookup other).or (if other = name ∧ name ∉ members then some t else none) := by
  show ∃ after, (if (object.read members name).truthy then some object
    else object.assign name t) = some after ∧ _
  by_cases htruthy : (object.read members name).truthy = true
  · rw [if_pos htruthy]
    refine ⟨object, rfl, fun other => ?_⟩
    -- the registration is skipped: the name is bound, or it is that of an inherited member
    rcases (truthy_read object name).1 htruthy with hbound | hinherited
    · -- the name is bound already
      split
      · rename_i h
        rw [h.1, Option.or_of_isSome hbound]
      · exact Option.or_none.symm
    · rw [if_neg fun h => h.2 hinherited, Option.or_none]
  · rw [if_neg htruthy]
    rw [truthy_read, not_or, Option.not_isSome_iff_eq_none] at htruthy
    obtain ⟨hunbound, hinherited⟩ := htruthy
    obtain ⟨after, hassign, hlookup⟩ := object.exists_assign hname t
    refine ⟨after, hassign, fun other => ?_⟩
    rw [hlookup]
    by_cases heq : other = name
    · rw [if_pos heq, if_pos ⟨heq, hinherited⟩, heq, hunbound, Option.none_or]
    · rw [if_neg heq, if_neg fun h => heq h.1, Option.or_none]

/-! ## All registrations of a module -/

section Registrations

variable (members) {entries : List (String × CheckedTemplate)}
  (hnames : ∀ entry ∈ entries, entry.1 ≠ "__proto__")

include hnames

/-- Guarded registrations bind names behind those that are bound, except for inherited ones; the first
of a name counts. -/
theorem lookup_foldlM_guarded (object : PlainObject) :
    ∃ after, (entries.map fun (name, t) => Module.statement true name t).foldlM (execute members)
        object = some after ∧
      ∀ name, after.lookup name =
        (object.lookup name).or (if name ∈ members then none else entries.lookup name) := by
  induction entries generalizing object with
  | nil =>
    refine ⟨object, rfl, fun name => ?_⟩
    simp
  | cons entry rest ih =>
    obtain ⟨next, hnext, hfirst⟩ :=
      object.exists_execute_guarded (hnames entry List.mem_cons_self) entry.2
    obtain ⟨after, hafter, hrest⟩ :=
      ih (fun other hother => hnames other (List.mem_cons_of_mem entry hother)) next
    refine ⟨after, ?_, fun name => ?_⟩
    · rw [List.map_cons, List.foldlM_cons, hnext]
      exact hafter
    · rw [hrest, hfirst, Option.or_assoc, List.lookup_cons]
      -- behind what was bound before, the first entry goes before the rest, unless it is inherited
      congr 1
      by_cases heq : name = entry.1
      · by_cases hinherited : name ∈ members
        · rw [if_pos hinherited, if_pos hinherited, if_neg fun h => h.2 (heq ▸ hinherited)]
          rfl
        · rw [if_neg hinherited, if_neg hinherited, if_pos ⟨heq, heq ▸ hinherited⟩, beq_iff_eq.2 heq]
          rfl
      · rw [if_neg fun h => heq h.1, beq_false_of_ne heq, Option.none_or]

/-- Unguarded registrations bind all names, whatever is bound or inherited, if no name comes twice. -/
theorem lookup_foldlM_unguarded (hnodup : (entries.map Prod.fst).Nodup) (object : PlainObject) :
    ∃ after, (entries.map fun (name, t) => Module.statement false name t).foldlM (execute members)
        object = some after ∧
      ∀ name, after.lookup name = (entries.lookup name).or (object.lookup name) := by
  -- by the entries; the later ones do not touch the first, since names are distinct
  induction entries generalizing object with
  | nil => exact ⟨object, rfl, fun name => rfl⟩
  | cons entry rest ih =>
    obtain ⟨hfresh, hdistinct⟩ := List.nodup_cons.1 hnodup
    obtain ⟨next, hnext, hfirst⟩ :=
      object.exists_assign (hnames entry List.mem_cons_self) entry.2
    obtain ⟨after, hafter, hrest⟩ :=
      ih (fun other hother => hnames other (List.mem_cons_of_mem entry hother)) hdistinct next
    refine ⟨after, ?_, fun name => ?_⟩
    · have hexecute : object.execute members (Module.statement false entry.1 entry.2) = some next :=
        hnext
      rw [List.map_cons, List.foldlM_cons, hexecute]
      exact hafter
    · rw [hrest, hfirst, List.lookup_cons]
      by_cases heq : name = entry.1
      · -- the name does not come again
        have hnone : rest.lookup name = none := lookup_eq_none_iff_not_mem.2 (heq ▸ hfresh)
        rw [hnone, if_pos heq, beq_iff_eq.2 heq]
        rfl
      · rw [if_neg heq, beq_false_of_ne heq]

end Registrations

/-- **A guard passes over inherited names.** A list of partials with different names, none of which is
`__proto__`, is registered by a guarded and by an unguarded module, with any targets. In a new runtime
the unguarded one binds just the names of the list, each to its template, and the guarded one those of
them that are not inherited. So the two leave the same if and only if no name is inherited. In a
runtime that has partials already, the guarded one binds the same names behind these. -/
theorem guarded_passes_over_inherited (members : List String) {partials : PartialList}
    (hnodup : partials.names.Nodup) (hproto : "__proto__" ∉ partials.names)
    (target target' : CheckedTemplate) :
    ∃ guarded unguarded : PlainObject,
      load members ∅ (Module.text ⟨target, partials, true⟩) = some guarded ∧
      load members ∅ (Module.text ⟨target', partials, false⟩) = some unguarded ∧
      (∀ name, unguarded.lookup name = partials.get? name) ∧
      (∀ name, guarded.lookup name = if name ∈ members then none else partials.get? name) ∧
      (guarded = unguarded ↔ ∀ name ∈ partials.names, name ∉ members) ∧
      ∀ object : PlainObject, ∃ after,
        load members object (Module.text ⟨target, partials, true⟩) = some after ∧
        ∀ name, after.lookup name = (object.lookup name).or (guarded.lookup name) := by
  have hnames : ∀ entry ∈ partials.entries, entry.1 ≠ "__proto__" := fun entry hentry heq =>
    hproto (heq ▸ List.mem_map_of_mem hentry)
  -- loading a module text is making its registrations
  have hload (m : Module) (object : PlainObject) :
      load members object m.text = m.listing.statements.foldlM (execute members) object := by
    unfold load
    rw [m.read?_text]
    rfl
  obtain ⟨guarded, hguarded, hbound⟩ := lookup_foldlM_guarded members hnames ∅
  obtain ⟨unguarded, hunguarded, hall⟩ :=
    lookup_foldlM_unguarded members hnames hnodup ∅
  have hbound (name : String) :
      guarded.lookup name = if name ∈ members then none else partials.get? name := by
    rw [hbound, Finmap.lookup_empty, Option.none_or]
    rfl
  have hall (name : String) : unguarded.lookup name = partials.get? name := by
    rw [hall, Finmap.lookup_empty, Option.or_none]
    rfl
  refine ⟨guarded, unguarded, (hload _ ∅).trans hguarded, (hload _ ∅).trans hunguarded, hall, hbound,
    ⟨fun hsame name hname hinherited => ?_, fun hnone => Finmap.ext_lookup fun name => ?_⟩,
    fun object => ?_⟩
  · -- an inherited name of the list is bound in one and not in the other
    rw [PartialList.mem_names_iff, ← hall, ← hsame, hbound, if_pos hinherited] at hname
    cases hname
  · rw [hbound, hall]
    split
    · rename_i hinherited
      have hname : name ∉ partials.names := fun hname => hnone name hname hinherited
      exact (lookup_eq_none_iff_not_mem.2 hname).symm
    · rfl
  · obtain ⟨after, hafter, hlookup⟩ := lookup_foldlM_guarded members hnames object
    refine ⟨after, (hload _ object).trans hafter, fun name => ?_⟩
    rw [hlookup, hbound]
    rfl

/-- Of three names one is inherited; another only ends with it. -/
theorem guarded_of_inherited_name :
    let t : CheckedTemplate := ⟨"x", {}⟩
    let partials : PartialList := ⟨[("a", t), ("sub/toString", t), ("toString", t)]⟩
    ∃ guarded unguarded : PlainObject,
      load inheritedMembers ∅ (Module.text ⟨⟨"y", {}⟩, partials, true⟩) = some guarded ∧
      load inheritedMembers ∅ (Module.text ⟨⟨"z", {}⟩, partials, false⟩) = some unguarded ∧
      guarded.lookup "a" = some t ∧ guarded.lookup "sub/toString" = some t ∧
      guarded.lookup "toString" = none ∧ unguarded.lookup "toString" = some t ∧
      guarded ≠ unguarded := by
  intro t partials
  obtain ⟨guarded, unguarded, hguarded, hunguarded, hall, hbound, hsame, -⟩ :=
    guarded_passes_over_inherited inheritedMembers
      (show partials.names.Nodup by decide) (show "__proto__" ∉ partials.names by decide)
      ⟨"y", {}⟩ ⟨"z", {}⟩
  refine ⟨guarded, unguarded, hguarded, hunguarded, ?_, ?_, ?_, ?_, fun h => ?_⟩
  · rw [hbound, if_neg (by decide)]
    rfl
  · rw [hbound, if_neg (by decide)]
    rfl
  · rw [hbound, if_pos (by decide)]
  · rw [hall]
    rfl
  · -- equal tables would need every inherited name to be registered before
    exact hsame.1 h "toString" (by decide) (by decide)

/-- A partial that is called `constructor` is registered by the unguarded module, and not by the guarded
one, which leaves a new runtime as it is. -/
theorem guarded_of_constructor :
    let partials : PartialList := ⟨[("constructor", ⟨"x", {}⟩)]⟩
    partials.names.Nodup ∧ "__proto__" ∉ partials.names ∧
      load inheritedMembers ∅ (Module.text ⟨⟨"y", {}⟩, partials, true⟩) = some ∅ ∧
      load inheritedMembers ∅ (Module.text ⟨⟨"y", {}⟩, partials, false⟩) =
        some (Finmap.insert "constructor" ⟨"x", {}⟩ ∅) ∧
      "constructor" ∉ (∅ : PlainObject) := by
  intro partials
  refine ⟨by decide, by decide, ?_, ?_, Finmap.notMem_empty⟩
  · unfold load
    rw [Module.read?_text]
    rfl
  · unfold load
    rw [Module.read?_text]
    rfl

end PlainObject

end Stencil
