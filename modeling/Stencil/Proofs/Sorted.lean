import Stencil.Sorted

/-!
# Tables do not depend on the order of entry

Entering pairs of different names sorts them: the table is a permutation of the pairs
(`perm_ofList`), and only one table is (`Ascending.eq_of_perm`). So the table of some pairs is known
as soon as any ascending arrangement of them is known (`ofList_eq_of_perm`). With names that repeat the
last value counts (`lookup_ofList`), and tables in which all names are looked up alike are the same
(`Ascending.eq_of_lookup_eq`). Where no name repeats, the order of the pairs does not matter for what is
looked up (`lookup_eq_of_perm`).
-/

namespace Stencil.Sorted

variable {α : Type} {name : String} {value : α} {table : List (String × α)}

/-- A new name is entered among the others. -/
theorem perm_insert (hnew : ∀ entry ∈ table, entry.1 ≠ name) :
    (insert name value table).Perm ((name, value) :: table) := by
  induction table with
  | nil => exact .refl _
  | cons first rest ih =>
    obtain ⟨k, v⟩ := first
    have hk : name ≠ k := (hnew (k, v) List.mem_cons_self).symm
    simp only [insert, if_neg hk]
    split
    · exact .refl _
    · have hrest := ih fun entry hentry => hnew entry (List.mem_cons_of_mem _ hentry)
      exact (hrest.cons (k, v)).trans (.swap (name, value) (k, v) rest)

/-- The entries that a table starts with stay, if the pairs entered have new names. -/
theorem perm_foldl_insert {entries : List (String × α)}
    (hnodup : (entries.map Prod.fst ++ table.map Prod.fst).Nodup) :
    (entries.foldl (fun table entry => insert entry.1 entry.2 table) table).Perm
      (entries ++ table) := by
  induction entries generalizing table with
  | nil => exact .refl _
  | cons entry rest ih =>
    obtain ⟨hfresh, hrest⟩ := List.nodup_cons.1 hnodup
    have hnew : ∀ other ∈ table, other.1 ≠ entry.1 := by
      intro other hother heq
      exact hfresh (List.mem_append_right _ (heq ▸ List.mem_map_of_mem hother))
    have hinsert : (insert entry.1 entry.2 table).Perm (entry :: table) := perm_insert hnew
    -- the entry has moved from the list into the table, so no name is there twice
    have hnodup' : (rest.map Prod.fst ++ (insert entry.1 entry.2 table).map Prod.fst).Nodup := by
      refine List.Perm.nodup ?_ hnodup
      have hnames := (hinsert.map Prod.fst).symm.append_left (rest.map Prod.fst)
      exact List.perm_middle.symm.trans hnames
    exact (ih hnodup').trans ((hinsert.append_left rest).trans List.perm_middle)

/-- The table of pairs with different names has exactly these pairs. -/
theorem perm_ofList {entries : List (String × α)} (hnodup : (entries.map Prod.fst).Nodup) :
    (ofList entries).Perm entries := by
  have hnodup' : (entries.map Prod.fst ++ ([] : List (String × α)).map Prod.fst).Nodup := by
    simpa using hnodup
  have h := perm_foldl_insert hnodup'
  rwa [List.append_nil] at h

/-- In a sorted table no name comes twice. -/
theorem Ascending.nodup (h : Ascending table) : (table.map Prod.fst).Nodup := by
  refine List.pairwise_map.2 (h.imp ?_)
  intro a b hlt heq
  rw [heq] at hlt
  exact String.lt_irrefl _ hlt

/-- Two ascending tables with the same entries are the same. -/
theorem Ascending.eq_of_perm {other : List (String × α)} (h : Ascending table)
    (hother : Ascending other) (hperm : table.Perm other) : table = other := by
  refine List.Perm.eq_of_pairwise (fun a b _ _ hab hba => ?_) h hother hperm
  exact absurd (String.lt_trans hab hba) (String.lt_irrefl _)

/-- The table of some pairs is their ascending arrangement. -/
theorem ofList_eq_of_perm {entries : List (String × α)} (h : Ascending table)
    (hperm : entries.Perm table) : ofList entries = table := by
  have hnodup : (entries.map Prod.fst).Nodup := (hperm.map Prod.fst).symm.nodup h.nodup
  exact (Ascending.ofList entries).eq_of_perm h ((perm_ofList hnodup).trans hperm)

/-- A table is the table of its own entries. -/
theorem ofList_eq_self (h : Ascending table) : ofList table = table :=
  ofList_eq_of_perm h (.refl table)

/-! ## Looking up names -/

/-- A name is looked up as the value that it was last entered with. -/
theorem lookup_foldl_insert (entries table : List (String × α)) (name : String) :
    (entries.foldl (fun table entry => insert entry.1 entry.2 table) table).lookup name =
      (entries.reverse.lookup name).or (table.lookup name) := by
  induction entries generalizing table with
  | nil => rfl
  | cons entry rest ih =>
    have hentry : (insert entry.1 entry.2 table).lookup name =
        (List.lookup name [entry]).or (table.lookup name) := by
      rw [lookup_insert, List.lookup_cons]
      by_cases h : name = entry.1
      · simp [h]
      · simp [h, beq_false_of_ne h]
    rw [List.foldl_cons, ih, hentry, List.reverse_cons, List.lookup_append, Option.or_assoc]

/-- Of several entries for a name, the last one counts. -/
theorem lookup_ofList (entries : List (String × α)) (name : String) :
    (ofList entries).lookup name = entries.reverse.lookup name := by
  unfold ofList
  rw [lookup_foldl_insert, List.lookup_nil, Option.or_none]

theorem lookup_map_snd {β : Type} (f : α → β) (entries : List (String × α)) (name : String) :
    (entries.map (Prod.map id f)).lookup name = (entries.lookup name).map f := by
  induction entries with
  | nil => rfl
  | cons entry rest ih =>
    rw [List.map_cons, List.lookup_cons, List.lookup_cons, ih]
    show (match name == entry.1 with | true => _ | false => _) = _
    cases name == entry.1 <;> rfl

/-- Where each name is entered once, what a name is looked up as is what it was entered with. -/
theorem lookup_eq_some_iff_mem (h : (table.map Prod.fst).Nodup) :
    table.lookup name = some value ↔ (name, value) ∈ table := by
  rw [List.lookup_eq_some_iff]
  constructor
  · rintro ⟨before, after, rfl, -⟩
    exact List.mem_append_right before List.mem_cons_self
  · intro hmem
    obtain ⟨before, after, rfl⟩ := List.append_of_mem hmem
    refine ⟨before, after, rfl, fun entry hentry => ?_⟩
    -- what stands before the entry has another name
    rw [List.map_append, List.map_cons] at h
    have hne := (List.nodup_append.1 h).2.2 entry.1 (List.mem_map_of_mem hentry) name
      List.mem_cons_self
    simpa using hne.symm

/-- A sorted table holds exactly what is found in it. -/
theorem Ascending.lookup_eq_some_iff (h : Ascending table) :
    table.lookup name = some value ↔ (name, value) ∈ table := lookup_eq_some_iff_mem h.nodup

/-- A table has only entries that were entered. -/
theorem mem_of_mem_ofList {entries : List (String × α)} {entry : String × α}
    (h : entry ∈ ofList entries) : entry ∈ entries := by
  have hlookup := (Ascending.ofList entries).lookup_eq_some_iff.2 h
  rw [lookup_ofList, List.lookup_eq_some_iff] at hlookup
  obtain ⟨before, after, hsplit, -⟩ := hlookup
  have hreverse : entry ∈ entries.reverse :=
    hsplit ▸ List.mem_append_right before List.mem_cons_self
  exact List.mem_reverse.1 hreverse

/-- The order of the entries does not matter where each name is entered once. -/
theorem lookup_eq_of_perm {other : List (String × α)} (h : (table.map Prod.fst).Nodup)
    (hperm : table.Perm other) : table.lookup name = other.lookup name := by
  have hother : (other.map Prod.fst).Nodup := (hperm.map Prod.fst).nodup h
  refine Option.ext fun value => ?_
  rw [lookup_eq_some_iff_mem h, lookup_eq_some_iff_mem hother, hperm.mem_iff]

/-- Two sorted tables with the same lookups are equal. -/
theorem Ascending.eq_of_lookup_eq {other : List (String × α)} (h : Ascending table)
    (hother : Ascending other) (hsame : ∀ name, table.lookup name = other.lookup name) :
    table = other := by
  have hmem (entry : String × α) : entry ∈ table ↔ entry ∈ other := by
    rw [← h.lookup_eq_some_iff, hsame, hother.lookup_eq_some_iff]
  have hnodup {entries : List (String × α)} (hentries : Ascending entries) : entries.Nodup := by
    refine hentries.imp ?_
    rintro a _ hlt rfl
    exact String.lt_irrefl a.1 hlt
  exact h.eq_of_perm hother ((List.perm_ext_iff_of_nodup (hnodup h) (hnodup hother)).2 hmem)

end Stencil.Sorted
