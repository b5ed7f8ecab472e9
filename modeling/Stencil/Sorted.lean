/-!
# Tables sorted by name

A table from names to values is a list of pairs in strictly ascending order of the names, by code
point. `insert` keeps that order and replaces an entry of the same name, so a table does not depend on
the order in which its entries came (`lookup_insert`, `Ascending.insert`).
-/

namespace Stencil.Sorted

/-- Entered under a name; an entry of the same name is replaced. -/
def insert {α : Type} (name : String) (value : α) : List (String × α) → List (String × α)
  | [] => [(name, value)]
  | (k, v) :: rest =>
    if name < k then (name, value) :: (k, v) :: rest
    else if name = k then (name, value) :: rest
    else (k, v) :: insert name value rest

/-- The table of the given pairs; of two pairs with one name the later counts. -/
def ofList {α : Type} (entries : List (String × α)) : List (String × α) :=
  entries.foldl (fun table entry => insert entry.1 entry.2 table) []

def Ascending {α : Type} (table : List (String × α)) : Prop :=
  table.Pairwise fun a b => a.1 < b.1

variable {α : Type} {name : String} {value : α} {table : List (String × α)}

theorem mem_insert {entry : String × α} (h : entry ∈ insert name value table) :
    entry = (name, value) ∨ entry ∈ table := by
  induction table with
  | nil => exact Or.inl (List.mem_singleton.1 h)
  | cons first rest ih =>
    obtain ⟨k, v⟩ := first
    simp only [insert] at h
    split at h
    · rcases List.mem_cons.1 h with h | h
      · exact Or.inl h
      · exact Or.inr h
    · split at h
      · rcases List.mem_cons.1 h with h | h
        · exact Or.inl h
        · exact Or.inr (List.mem_cons_of_mem _ h)
      · rcases List.mem_cons.1 h with h | h
        · exact Or.inr (h ▸ List.mem_cons_self)
        · rcases ih h with h | h
          · exact Or.inl h
          · exact Or.inr (List.mem_cons_of_mem _ h)

theorem Ascending.nil : Ascending ([] : List (String × α)) := List.Pairwise.nil

/-- Inserting keeps a table in order, whether the name is new or replaced. -/
theorem Ascending.insert (h : Ascending table) : Ascending (insert name value table) := by
  induction table with
  | nil => simp [Sorted.insert, Ascending]
  | cons first rest ih =>
    obtain ⟨k, v⟩ := first
    obtain ⟨hk, hrest⟩ := List.pairwise_cons.1 h
    simp only [Sorted.insert]
    split
    · rename_i hlt
      refine List.pairwise_cons.2 ⟨fun entry hentry => ?_, h⟩
      rcases List.mem_cons.1 hentry with rfl | hentry
      · exact hlt
      · exact String.lt_trans hlt (hk entry hentry)
    · split
      · rename_i heq
        subst heq
        exact List.pairwise_cons.2 ⟨hk, hrest⟩
      · -- further down: names are ordered in full, so this one comes after the first
        rename_i hlt hne
        have hgt : k < name := by
          rcases Decidable.em (k < name) with h | h
          · exact h
          · exact absurd (String.le_antisymm (String.not_lt.1 h) (String.not_lt.1 hlt)) hne
        refine List.pairwise_cons.2 ⟨fun entry hentry => ?_, ih hrest⟩
        rcases mem_insert hentry with rfl | hentry
        · exact hgt
        · exact hk entry hentry

/-- A table made from a list is in order. -/
theorem Ascending.ofList (entries : List (String × α)) : Ascending (ofList entries) := by
  suffices h : ∀ table : List (String × α), Ascending table →
      Ascending (entries.foldl (fun table entry => Sorted.insert entry.1 entry.2 table) table) from
    h [] Ascending.nil
  induction entries with
  | nil => exact fun _ h => h
  | cons entry rest ih => exact fun table h => ih _ h.insert

private theorem lookup_cons_ite (k other : String) (v : α) (rest : List (String × α)) :
    List.lookup other ((k, v) :: rest) = if other = k then some v else rest.lookup other := by
  by_cases h : other = k
  · simp [h]
  · simp [List.lookup_cons, h, beq_false_of_ne h]

/-- After inserting, the name is found with its new value and every other one as before. -/
theorem lookup_insert {other : String} :
    (insert name value table).lookup other =
      if other = name then some value else table.lookup other := by
  induction table with
  | nil => simp [insert, lookup_cons_ite]
  | cons first rest ih =>
    obtain ⟨k, v⟩ := first
    simp only [insert]
    split
    · simp only [lookup_cons_ite]
    · split
      · rename_i heq
        subst heq
        simp only [lookup_cons_ite]
        split <;> rfl
      · rename_i hne
        simp only [lookup_cons_ite, ih]
        by_cases hk : other = k
        · subst hk
          simp [Ne.symm hne]
        · simp [hk]

end Stencil.Sorted
