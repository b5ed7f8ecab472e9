import Mathlib.Data.List.Nodup
import Stencil.Toml.Table

/-!
# Adding to tables under construction

A file adds to the table that it is in, and that is the last entry of the table around it, and so on up to
the table of the file. So each step is described by what it does to the inner table (`Leads.assign`,
`Leads.openTable`), whatever is around.
-/

namespace Stencil.Toml

variable {entries : Entries} {key : String}

/-- Entries under other keys are passed over. -/
theorem put_append (h : entries.lookup key = none) (node : Node) (more : Entries) :
    put key node (entries ++ more) = entries ++ put key node more := by
  induction entries with
  | nil => rfl
  | cons entry rest ih =>
    have hother := List.lookup_eq_none_iff.1 h entry List.mem_cons_self
    have hrest : rest.lookup key = none :=
      List.lookup_eq_none_iff.2 fun p hp =>
        List.lookup_eq_none_iff.1 h p (List.mem_cons_of_mem _ hp)
    rw [List.cons_append, put, if_neg (Ne.symm (by simpa using hother)), ih hrest]
    rfl

/-- A key that is not in the table yet goes to the end. -/
theorem put_new (h : entries.lookup key = none) (node : Node) :
    put key node entries = entries ++ [(key, node)] := by
  have hput := put_append h node []
  rwa [List.append_nil] at hput

theorem put_last (h : entries.lookup key = none) (old new : Node) :
    put key new (entries ++ [(key, old)]) = entries ++ [(key, new)] := by
  rw [put_append h, put, if_pos rfl]

theorem lookup_last (h : entries.lookup key = none) (node : Node) :
    (entries ++ [(key, node)]).lookup key = some node := by
  rw [List.lookup_append, h]
  simp

namespace Table

variable {t inner : Table}

def ending (t : Table) (key : String) (inner : Table) : Table :=
  { t with entries := t.entries ++ [(key, inner.node)] }

def setting (t : Table) (values : List (String × Value)) : Table :=
  { t with entries := t.entries ++ values.map fun entry => (entry.1, .value entry.2) }

theorem setting_nil : t.setting [] = t := by
  unfold setting
  rw [List.map_nil, List.append_nil]

/-- Setting values one list after the other is setting both at once. -/
theorem setting_setting (a b : List (String × Value)) :
    (t.setting a).setting b = t.setting (a ++ b) := by
  unfold setting
  simp only [List.map_append, List.append_assoc]

/-- A key is free in a table if it is there in neither the old nor the new entries. -/
theorem lookup_setting (hfree : t.entries.lookup key = none) {values : List (String × Value)}
    (hnew : ∀ entry ∈ values, entry.1 ≠ key) : (t.setting values).entries.lookup key = none := by
  unfold setting
  rw [List.lookup_append, hfree, Option.none_or, List.lookup_eq_none_iff]
  intro p hp
  obtain ⟨entry, hentry, rfl⟩ := List.mem_map.1 hp
  simpa using (hnew entry hentry).symm

/-- What a table holds once its construction is over. -/
def frozen (t : Table) : List (String × Value) := Node.freeze.freezeEntries t.entries

theorem freezeEntries_append (a b : Entries) :
    Node.freeze.freezeEntries (a ++ b) =
      Node.freeze.freezeEntries a ++ Node.freeze.freezeEntries b := by
  induction a with
  | nil => rfl
  | cons entry rest ih =>
    rw [List.cons_append, Node.freeze.freezeEntries, ih]
    rfl

/-- Setting values adds them to the frozen table, at the end. -/
theorem frozen_setting (t : Table) (values : List (String × Value)) :
    (t.setting values).frozen = t.frozen ++ values := by
  have hvalues : Node.freeze.freezeEntries
      (values.map fun entry => (entry.1, Node.value entry.2)) = values := by
    induction values with
    | nil => rfl
    | cons entry rest ih =>
      rw [List.map_cons, Node.freeze.freezeEntries, ih]
      rfl
  unfold frozen setting
  rw [freezeEntries_append, hvalues]

/-- A table put at the end is frozen in its place. -/
theorem frozen_ending (t : Table) (key : String) (inner : Table) :
    (t.ending key inner).frozen = t.frozen ++ [(key, .table inner.frozen)] := by
  unfold frozen ending
  rw [freezeEntries_append]
  rfl

/-- A path leads to a table that stands somewhere in another one. -/
def Leads (path : List String) (around : Table → Table) : Prop :=
  ∀ (f : Table → Option Table) (inner : Table),
    (around inner).change false f path = (f inner).map around

/-- The empty path leads to the table itself. -/
theorem Leads.here : Leads [] id := by
  intro f inner
  rw [Option.map_id]
  rfl

/-- A last entry is found under its key. -/
theorem Leads.below {path : List String} {around : Table → Table} (h : Leads path around)
    (hfree : t.entries.lookup key = none) :
    Leads (key :: path) fun inner => t.ending key (around inner) := by
  intro f inner
  have hfound : (t.ending key (around inner)).entries.lookup key = some (around inner).node :=
    lookup_last hfree _
  rw [change.eq_def]
  simp only [hfound, node, Bool.false_and, Bool.false_eq_true, if_false]
  show ((around inner).change false f path).bind _ = _
  rw [h f inner]
  -- the change fails inside, or its result is put back in the same place
  cases f inner with
  | none => rfl
  | some changed =>
    simp only [Option.map_some, Option.bind_some, ending, put_last hfree]
    rfl

/-- A table that is missing is made, and stands for itself only if it gets a header later. -/
theorem change_missing (hfree : t.entries.lookup key = none) (f : Table → Option Table)
    (path : List String) :
    t.change false f (key :: path) =
      (({ implied := true } : Table).change false f path).map (t.ending key) := by
  rw [change.eq_def]
  simp only [hfree]
  show (({ implied := true } : Table).change false f path).bind _ = _
  cases ({ implied := true } : Table).change false f path with
  | none => rfl
  | some made =>
    simp only [Option.bind_some, put_new hfree]
    rfl

section Inner

variable {path : List String} {around : Table → Table} (h : Leads path around)

include h

/-- A value is set under a key that is free. -/
theorem Leads.assign (hdotted : inner.dotted = false) (hfree : inner.entries.lookup key = none)
    (v : Value) :
    (around inner).change false (Table.assign [] key v) path =
      some (around (inner.setting [(key, v)])) := by
  have hassign : Table.assign [] key v inner = some (inner.setting [(key, v)]) := by
    show (if inner.dotted == true then none else inner.add key v) = _
    rw [hdotted]
    show inner.add key v = _
    unfold add
    rw [hfree]
    rfl
  rw [h, hassign]
  rfl

/-- A table is opened under a key that is free. -/
theorem Leads.openTable (hfree : inner.entries.lookup key = none) :
    (around inner).openTable path key = some (around (inner.ending key {})) := by
  unfold Table.openTable
  rw [h]
  simp only [hfree]
  rfl

end Inner

/-- A table is opened in one that is missing. -/
theorem openTable_missing {first : String} (hfree : t.entries.lookup first = none) (key : String) :
    t.openTable [first] key =
      some (t.ending first (({ implied := true } : Table).ending key {})) := by
  unfold openTable
  rw [change_missing hfree]
  rfl

end Table

end Stencil.Toml
