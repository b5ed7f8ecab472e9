import Mathlib.Data.List.Nodup
import Stencil.Options.Shape
import Stencil.Proofs.Except
import Stencil.Proofs.Sorted

/-!
# Setting options member by member

Whether a member can be set does not depend on the options that it is set in, so a table is taken just if
each of its members is (`exists_foldlM_iff`). A member sets the field of its name and leaves the others, so
where no name repeats a field has the value under its name, or else the one that it had
(`field_of_foldlM`). What each reader of a field takes is stated as an equation.
-/

namespace Stencil

namespace Shape

theorem ofItems_eq_map (items : List Json) : ofJson.ofItems items = items.map ofJson := by
  induction items with
  | nil => rfl
  | cons item rest ih => rw [ofJson.ofItems, ih, List.map_cons]

theorem ofMembers_eq_map (members : List (String × Json)) :
    ofJson.ofMembers members = members.map (Prod.map id ofJson) := by
  induction members with
  | nil => rfl
  | cons member rest ih =>
    rw [ofJson.ofMembers, ih]
    rfl

/-! ## Kinds of values -/

def IsText (v : Shape) : Prop := ∃ s, v = .text s

def IsBool (v : Shape) : Prop := ∃ b, v = .bool b

def IsBoolTable (v : Shape) : Prop :=
  ∃ entries, v = .object entries ∧ ∀ entry ∈ entries, entry.2.IsBool

/-- Only a boolean is read as one. -/
theorem asBool_eq_ok_iff {v : Shape} {b : Bool} : asBool v = .ok b ↔ v = .bool b := by
  cases v <;> simp [asBool, wrong]

theorem asText_eq_ok_iff {expected : String} {v : Shape} {s : String} :
    asText expected v = .ok s ↔ v = .text s := by
  cases v <;> simp [asText, wrong]

/-- Null leaves a field unset, and any other value has to be read. -/
theorem optional_eq_ok_iff {α : Type} {read : Shape → Except ShapeError α}
    (hnull : ∀ a, read .null ≠ .ok a) {v : Shape} {field : Option α} :
    optional read v = .ok field ↔
      v = .null ∧ field = none ∨ ∃ a, read v = .ok a ∧ field = some a := by
  by_cases hv : v = .null
  · subst hv
    simp [optional, hnull, eq_comm]
  · have hread : optional read v = (read v).map some := by
      cases v with
      | null => exact absurd rfl hv
      | _ => rfl
    rw [hread]
    cases read v <;> simp [Except.map, hv, eq_comm]

/-- Booleans under their names. -/
theorem mapM_asBool_eq_ok_iff {entries : List (String × Shape)} {bools : List (String × Bool)} :
    entries.mapM (fun entry => do return (entry.1, ← asBool entry.2)) =
        (.ok bools : Except ShapeError (List (String × Bool))) ↔
      entries = bools.map (Prod.map id .bool) := by
  induction entries generalizing bools with
  | nil =>
    rw [List.mapM_nil, pure_eq_ok_iff]
    cases bools <;> simp
  | cons entry rest ih =>
    obtain ⟨name, v⟩ := entry
    simp only [List.mapM_cons, bind_eq_ok_iff, pure_eq_ok_iff, asBool_eq_ok_iff, ih]
    constructor
    · -- the first entry is a boolean and so are the others, in both directions
      rintro ⟨_, ⟨b, rfl, rfl⟩, more, rfl, rfl⟩
      rfl
    · intro h
      obtain ⟨first, more, rfl, hfirst, hmore⟩ := List.map_eq_cons_iff.1 h.symm
      cases hfirst
      exact ⟨_, ⟨first.2, rfl, rfl⟩, more, hmore.symm, rfl⟩

/-- Known helpers are read from tables of booleans alone. -/
theorem asKnownHelpers_eq_ok_iff {v : Shape} {known : KnownHelpers} :
    asKnownHelpers v = .ok known ↔
      ∃ bools, v = .object (bools.map (Prod.map id .bool)) ∧ known = .ofList bools := by
  cases v with
  | object entries =>
    have hread : asKnownHelpers (.object entries) =
        entries.mapM (fun entry => do return (entry.1, ← asBool entry.2)) >>= fun bools =>
          return KnownHelpers.ofList bools := rfl
    simp only [hread, bind_eq_ok_iff, pure_eq_ok_iff, mapM_asBool_eq_ok_iff, Shape.object.injEq,
      @eq_comm _ known]
  | _ => simp [asKnownHelpers, wrong]

/-- A table of booleans is one that was made from booleans. -/
theorem forall_isBool_iff {entries : List (String × Shape)} :
    (∀ entry ∈ entries, entry.2.IsBool) ↔
      ∃ bools : List (String × Bool), entries = bools.map (Prod.map id .bool) := by
  constructor
  · intro h
    induction entries with
    | nil => exact ⟨[], rfl⟩
    | cons entry rest ih =>
      obtain ⟨b, hb⟩ := h entry List.mem_cons_self
      obtain ⟨bools, rfl⟩ := ih fun other hother => h other (List.mem_cons_of_mem _ hother)
      refine ⟨(entry.1, b) :: bools, ?_⟩
      rw [List.map_cons, Prod.map, ← hb]
      rfl
  · rintro ⟨bools, rfl⟩ entry hentry
    obtain ⟨bool, -, rfl⟩ := List.mem_map.1 hentry
    exact ⟨bool.2, rfl⟩

/-- A field can be set to null and to what can be read. -/
theorem exists_optional_iff {α : Type} {read : Shape → Except ShapeError α}
    (hnull : ∀ a, read .null ≠ .ok a) {v : Shape} :
    (∃ field, optional read v = .ok field) ↔ v = .null ∨ ∃ a, read v = .ok a := by
  simp only [optional_eq_ok_iff hnull]
  constructor
  · rintro ⟨field, ⟨hv, -⟩ | ⟨a, ha, -⟩⟩
    · exact .inl hv
    · exact .inr ⟨a, ha⟩
  · rintro (hv | ⟨a, ha⟩)
    · exact ⟨none, .inl ⟨hv, rfl⟩⟩
    · exact ⟨some a, .inr ⟨a, ha, rfl⟩⟩

theorem asBool_null (b : Bool) : asBool .null ≠ .ok b := nofun

theorem asText_null (expected s : String) : asText expected .null ≠ .ok s := nofun

theorem asKnownHelpers_null (known : KnownHelpers) : asKnownHelpers .null ≠ .ok known := nofun

/-- What can be read as a boolean is one; the next two say so of texts and of known helpers. -/
theorem exists_asBool_iff {v : Shape} : (∃ b, asBool v = .ok b) ↔ v.IsBool := by
  simp only [asBool_eq_ok_iff, IsBool]

theorem exists_asText_iff {expected : String} {v : Shape} :
    (∃ s, asText expected v = .ok s) ↔ v.IsText := by
  simp only [asText_eq_ok_iff, IsText]

theorem exists_asKnownHelpers_iff {v : Shape} :
    (∃ known, asKnownHelpers v = .ok known) ↔ v.IsBoolTable := by
  simp only [asKnownHelpers_eq_ok_iff, IsBoolTable]
  constructor
  · rintro ⟨_, bools, rfl, rfl⟩
    exact ⟨_, rfl, forall_isBool_iff.2 ⟨bools, rfl⟩⟩
  · rintro ⟨entries, rfl, hbools⟩
    obtain ⟨bools, rfl⟩ := forall_isBool_iff.1 hbools
    exact ⟨_, bools, rfl, rfl⟩

/-! ## Numbers -/

/-- No number in a table is out of range just if none in a member is. -/
theorem ignored_object_iff {members : List (String × Shape)} :
    (Shape.object members).ignored = .ok () ↔ ∀ member ∈ members, member.2.ignored = .ok () := by
  show ignored.ignoredMembers members = .ok () ↔ _
  induction members with
  | nil => simp [ignored.ignoredMembers]
  | cons member rest ih =>
    obtain ⟨name, v⟩ := member
    rw [ignored.ignoredMembers, bind_eq_ok_iff, List.forall_mem_cons, ← ih]
    exact ⟨fun ⟨_, hv, hrest⟩ => ⟨hv, hrest⟩, fun ⟨hv, hrest⟩ => ⟨(), hv, hrest⟩⟩

/-- An array is passed over if its items are. -/
theorem ignored_array_iff {items : List Shape} {mayBeLonger : Bool} :
    (Shape.array items mayBeLonger).ignored = .ok () ↔ ∀ item ∈ items, item.ignored = .ok () := by
  show ignored.ignoredItems items = .ok () ↔ _
  induction items with
  | nil => simp [ignored.ignoredItems]
  | cons item rest ih =>
    rw [ignored.ignoredItems, bind_eq_ok_iff, List.forall_mem_cons, ← ih]
    exact ⟨fun ⟨_, hitem, hrest⟩ => ⟨hitem, hrest⟩, fun ⟨hitem, hrest⟩ => ⟨(), hitem, hrest⟩⟩

/-- None is in a boolean, nor in a table of booleans. -/
theorem IsBool.ignored {v : Shape} : v.IsBool → v.ignored = .ok () := by
  rintro ⟨b, rfl⟩
  rfl

theorem IsText.ignored {v : Shape} : v.IsText → v.ignored = .ok () := by
  rintro ⟨s, rfl⟩
  rfl

theorem IsBoolTable.ignored {v : Shape} : v.IsBoolTable → v.ignored = .ok () := by
  rintro ⟨entries, rfl, hbools⟩
  exact ignored_object_iff.2 fun entry hentry => (hbools entry hentry).ignored

/-- An option that may be null is passed over in both cases. -/
theorem ignored_of_null_or {v : Shape} {p : Prop} (himp : p → v.ignored = .ok ()) :
    v = .null ∨ p → v.ignored = .ok ()
  | .inl hnull => hnull ▸ rfl
  | .inr hp => himp hp

/-! ## Values of fields -/

/-- The value of an optional field as its key gives it: the field is unset if the key is absent or null. -/
def Sets {α : Type} (means : Shape → α → Prop) (given : Option Shape) (field : Option α) : Prop :=
  match given with
  | none => field = none
  | some v => v = .null ∧ field = none ∨ ∃ a, means v a ∧ field = some a

/-- The entries of a table are these known helpers. -/
def MeansHelpers (v : Shape) (known : KnownHelpers) : Prop :=
  ∃ entries, v = .object entries ∧
    ∀ name, entries.lookup name = (known.entries.lookup name).map .bool

/-- A member sets its field to one value only. -/
theorem Sets.unique {α : Type} {means : Shape → α → Prop} (hnull : ∀ a, ¬means .null a)
    (hmeans : ∀ v a b, means v a → means v b → a = b) {given : Option Shape} {field field' : Option α}
    (h : Sets means given field) (h' : Sets means given field') : field = field' := by
  cases given with
  | none => exact h.trans h'.symm
  | some v =>
    obtain ⟨rfl, rfl⟩ | ⟨a, ha, rfl⟩ := h
    · obtain ⟨-, rfl⟩ | ⟨b, hb, -⟩ := h'
      · rfl
      · exact absurd hb (hnull b)
    · obtain ⟨rfl, -⟩ | ⟨b, hb, rfl⟩ := h'
      · exact absurd ha (hnull a)
      · rw [hmeans v a b ha hb]

/-- A field that is given as it is. -/
theorem Sets.unique_of_eq {α : Type} {make : α → Shape} (hnull : ∀ a, make a ≠ .null)
    (hmake : ∀ a b, make a = make b → a = b) {given : Option Shape} {field field' : Option α}
    (h : Sets (fun v a => v = make a) given field) (h' : Sets (fun v a => v = make a) given field') :
    field = field' :=
  Sets.unique (fun a ha => hnull a ha.symm) (fun _ a b ha hb => hmake a b (ha.symm.trans hb)) h h'

/-- A table means one set of known helpers. -/
theorem MeansHelpers.unique {v : Shape} {known known' : KnownHelpers} (h : MeansHelpers v known)
    (h' : MeansHelpers v known') : known = known' := by
  obtain ⟨entries, rfl, hentries⟩ := h
  obtain ⟨_, ⟨⟩, hentries'⟩ := h'
  have hlookup (name : String) : known.entries.lookup name = known'.entries.lookup name :=
    Option.map_injective (fun _ _ => Shape.bool.inj) ((hentries name).symm.trans (hentries' name))
  have hsame := known.ascending.eq_of_lookup_eq known'.ascending hlookup
  cases known
  cases known'
  cases hsame
  rfl

/-- Fields of the same names are the same if what is said of a name fits one value only. -/
theorem eq_of_names {β : Type} (Means : String → β → Prop)
    (hunique : ∀ name a b, Means name a → Means name b → a = b) {fields fields' : List (String × β)}
    (hnames : fields.map Prod.fst = fields'.map Prod.fst)
    (h : ∀ field ∈ fields, Means field.1 field.2) (h' : ∀ field ∈ fields', Means field.1 field.2) :
    fields = fields' := by
  -- field by field, the names of both lists being the same
  induction fields generalizing fields' with
  | nil => exact (List.map_eq_nil_iff.1 hnames.symm).symm
  | cons field rest ih =>
    obtain ⟨⟨name, b⟩, rest', rfl, heq, hrest⟩ := List.map_eq_cons_iff.1 hnames.symm
    obtain ⟨hfield, hothers⟩ := List.forall_mem_cons.1 h
    obtain ⟨hfield', hothers'⟩ := List.forall_mem_cons.1 h'
    obtain ⟨_, a⟩ := field
    cases heq
    rw [hunique name a b hfield hfield', ih hrest.symm hothers hothers']

/-! ## Tables without repeated names -/

/-- No table in the value names a key twice. -/
inductive Distinct : Shape → Prop
  | null : Distinct .null
  | bool (b : Bool) : Distinct (.bool b)
  | text (s : String) : Distinct (.text s)
  | number (found : String) (inRange : Bool) : Distinct (.number found inRange)
  | array {items : List Shape} (mayBeLonger : Bool) (h : ∀ item ∈ items, Distinct item) :
    Distinct (.array items mayBeLonger)
  | object {members : List (String × Shape)} (hkeys : (members.map Prod.fst).Nodup)
    (h : ∀ member ∈ members, Distinct member.2) : Distinct (.object members)

theorem Distinct.keys {members : List (String × Shape)} (h : Distinct (.object members)) :
    (members.map Prod.fst).Nodup := by
  cases h with
  | object hkeys _ => exact hkeys

/-- Members of a value that names no key twice do not either. -/
theorem Distinct.of_mem {members : List (String × Shape)} (h : Distinct (.object members))
    {name : String} {v : Shape} (hmem : (name, v) ∈ members) : v.Distinct := by
  cases h with
  | object _ h => exact h _ hmem

/-- Known helpers are read as the entries of their table say. -/
theorem meansHelpers_of_asKnownHelpers {v : Shape} {known : KnownHelpers} (hdistinct : v.Distinct)
    (h : asKnownHelpers v = .ok known) : MeansHelpers v known := by
  obtain ⟨bools, rfl, rfl⟩ := asKnownHelpers_eq_ok_iff.1 h
  refine ⟨_, rfl, fun name => ?_⟩
  have hkeys : (bools.map Prod.fst).Nodup := by
    have hkeys := hdistinct.keys
    rwa [List.map_map] at hkeys
  have hsorted : (KnownHelpers.ofList bools).entries.lookup name = bools.lookup name :=
    (Sorted.lookup_eq_of_perm hkeys (Sorted.perm_ofList hkeys).symm).symm
  rw [hsorted]
  exact Sorted.lookup_map_snd Shape.bool bools name

/-! ## Setting members one after the other -/

section Fold

variable {α β : Type} {set : α → String → Shape → Except ShapeError α}

/-- A table is taken just if each member can be set. -/
theorem exists_foldlM_iff (Allowed : String → Shape → Prop) {members : List (String × Shape)}
    (hset : ∀ o, ∀ member ∈ members,
      (∃ o', set o member.1 member.2 = .ok o') ↔ Allowed member.1 member.2) (o : α) :
    (∃ o', members.foldlM (fun o member => set o member.1 member.2) o = .ok o') ↔
      ∀ member ∈ members, Allowed member.1 member.2 := by
  -- by the members; whether a member is allowed does not depend on what was set before
  induction members generalizing o with
  | nil => simp [pure_eq_ok_iff]
  | cons member rest ih =>
    have hrest := ih fun o other hother => hset o other (List.mem_cons_of_mem _ hother)
    rw [List.forall_mem_cons, ← hset o member List.mem_cons_self]
    simp only [List.foldlM_cons, bind_eq_ok_iff]
    constructor
    · rintro ⟨o', first, hfirst, ho'⟩
      exact ⟨⟨first, hfirst⟩, (hrest first).1 ⟨o', ho'⟩⟩
    · rintro ⟨⟨first, hfirst⟩, hallowed⟩
      obtain ⟨o', ho'⟩ := (hrest first).2 hallowed
      exact ⟨o', first, hfirst, ho'⟩

/-- A field has the value under its name, or else the one that it had. -/
theorem field_of_foldlM (Field : α → β → Prop) (name : String) (read : Shape → Except ShapeError β)
    (hsame : ∀ {o v o' x}, set o name v = .ok o' → Field o' x → read v = .ok x)
    (hother : ∀ {o other v o' x}, other ≠ name → set o other v = .ok o' → Field o' x → Field o x)
    {members : List (String × Shape)} (hkeys : (members.map Prod.fst).Nodup) {o o' : α}
    (h : members.foldlM (fun o member => set o member.1 member.2) o = .ok o') {x : β}
    (hx : Field o' x) :
    match members.lookup name with
    | none => Field o x
    | some v => read v = .ok x := by
  -- from the first member on, the rest leaves the field or sets it
  induction members generalizing o with
  | nil =>
    cases h
    exact hx
  | cons member rest ih =>
    obtain ⟨other, v⟩ := member
    obtain ⟨hfresh, hkeys⟩ := List.nodup_cons.1 hkeys
    rw [List.foldlM_cons, bind_eq_ok_iff] at h
    obtain ⟨first, hfirst, h⟩ := h
    have hrest := ih hkeys h
    rw [List.lookup_cons]
    by_cases heq : name = other
    · -- the name does not come again, so the field stays as it is set here
      subst heq
      have hnone : rest.lookup name = none := List.lookup_eq_none_iff.2 fun entry hentry => by
        have hmem : entry.1 ∈ rest.map Prod.fst := List.mem_map_of_mem hentry
        have hne : name ≠ entry.1 := fun heq => hfresh (heq ▸ hmem)
        simpa using hne
      rw [hnone] at hrest
      simp only [beq_self_eq_true]
      exact hsame hfirst hrest
    · simp only [beq_false_of_ne heq]
      cases hlookup : rest.lookup name with
      | none =>
        rw [hlookup] at hrest
        exact hother (Ne.symm heq) hfirst hrest
      | some w =>
        rw [hlookup] at hrest
        exact hrest

/-- An optional field that is unset at first has the value under its name. -/
theorem sets_of_foldlM (Field : α → Option β → Prop) {name : String}
    {read : Shape → Except ShapeError β} (hnull : ∀ b, read .null ≠ .ok b)
    (hsame : ∀ {o v o' x}, set o name v = .ok o' → Field o' x → optional read v = .ok x)
    (hother : ∀ {o other v o' x}, other ≠ name → set o other v = .ok o' → Field o' x → Field o x)
    {members : List (String × Shape)} (hkeys : (members.map Prod.fst).Nodup) {means : Shape → β → Prop}
    (hmeans : ∀ v, (name, v) ∈ members → ∀ b, read v = .ok b → means v b)
    {unset o : α} (hunset : ∀ x, Field unset x → x = none)
    (h : members.foldlM (fun o member => set o member.1 member.2) unset = .ok o) {x : Option β}
    (hx : Field o x) : Sets means (members.lookup name) x := by
  have hfield := field_of_foldlM Field name (optional read) hsame hother hkeys h hx
  -- without a member the field stays unset, and with one it was set by just this member
  cases hlookup : members.lookup name with
  | none =>
    rw [hlookup] at hfield
    exact hunset x hfield
  | some v =>
    rw [hlookup] at hfield
    have hv : (name, v) ∈ members := (Sorted.lookup_eq_some_iff_mem hkeys).1 hlookup
    obtain hunread | ⟨b, hb, hxb⟩ := (optional_eq_ok_iff hnull).1 hfield
    · exact .inl hunread
    · exact .inr ⟨b, hmeans v hv b hb, hxb⟩

end Fold

end Shape

end Stencil
