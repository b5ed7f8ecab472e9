import Stencil.Proofs.Sorted
import Stencil.Proofs.Toml.Table
import Stencil.Toml.Reader

/-!
# Files name no key twice

Each step of reading keeps the tables under construction free of keys that are named twice
(`DistinctEntries.change`), so the value that a file is read as is free of them at every depth
(`distinct_of_read?`).
-/

namespace Stencil.Toml

/-- No table in the value names a key twice. -/
inductive Value.Distinct : Value → Prop
  | text (s : String) : Distinct (.text s)
  | integer (n : Int) : Distinct (.integer n)
  | float (x : Option Binary64) : Distinct (.float x)
  | boolean (b : Bool) : Distinct (.boolean b)
  | datetime (spelling : String) : Distinct (.datetime spelling)
  | array {items : List Value} (h : ∀ item ∈ items, Distinct item) : Distinct (.array items)
  | table {entries : List (String × Value)} (hkeys : (entries.map Prod.fst).Nodup)
    (h : ∀ entry ∈ entries, Distinct entry.2) : Distinct (.table entries)

/-- No table under construction names a key twice. -/
inductive Node.Distinct : Node → Prop
  | value {v : Value} (h : v.Distinct) : Distinct (.value v)
  | table (implied dotted : Bool) {entries : Entries} (hkeys : (entries.map Prod.fst).Nodup)
    (h : ∀ entry ∈ entries, Distinct entry.2) : Distinct (.table implied dotted entries)
  | tables {last : Entries} {others : List Entries}
    (hkeys : ∀ entries ∈ last :: others, (entries.map Prod.fst).Nodup)
    (h : ∀ entries ∈ last :: others, ∀ entry ∈ entries, Distinct entry.2) :
    Distinct (.tables last others)

/-- The entries of a table under construction, without a key named twice. -/
structure DistinctEntries (entries : Entries) : Prop where
  keys : (entries.map Prod.fst).Nodup
  nodes : ∀ entry ∈ entries, entry.2.Distinct

variable {entries : Entries} {key : String} {node : Node}

/-- Putting a key adds its entry and keeps or replaces others. -/
theorem mem_put {entry : String × Node} (h : entry ∈ put key node entries) :
    entry = (key, node) ∨ entry ∈ entries := by
  induction entries with
  | nil => exact .inl (List.mem_singleton.1 h)
  | cons first rest ih =>
    rw [put] at h
    split at h
    · obtain hentry | hentry := List.mem_cons.1 h
      · exact .inl hentry
      · exact .inr (List.mem_cons_of_mem _ hentry)
    · obtain hentry | hentry := List.mem_cons.1 h
      · exact .inr (hentry ▸ List.mem_cons_self)
      · exact (ih hentry).imp_right (List.mem_cons_of_mem _)

namespace DistinctEntries

theorem nil : DistinctEntries [] := ⟨List.nodup_nil, nofun⟩

/-- Putting replaces the value of a key that is there. -/
theorem put (h : DistinctEntries entries) (hnode : node.Distinct) :
    DistinctEntries (put key node entries) where
  keys := by
    have hkeys := h.keys
    clear h
    induction entries with
    | nil => simp [Toml.put]
    | cons first rest ih =>
      obtain ⟨hfresh, hrest⟩ := List.nodup_cons.1 hkeys
      rw [Toml.put]
      split
      · rename_i heq
        exact heq ▸ hkeys
      · -- the key is put further down, so the first one stays the only one of its name
        rename_i hne
        refine List.nodup_cons.2 ⟨fun hmem => ?_, ih hrest⟩
        obtain ⟨entry, hentry, heq⟩ := List.mem_map.1 hmem
        obtain rfl | hentry := mem_put hentry
        · exact hne heq.symm
        · exact hfresh (heq ▸ List.mem_map_of_mem hentry)
  nodes := by
    intro entry hentry
    obtain rfl | hentry := mem_put hentry
    · exact hnode
    · exact h.nodes entry hentry

/-- A key that is not there yet may be added at the end. -/
theorem append (h : DistinctEntries entries) (hfree : entries.lookup key = none)
    (hnode : node.Distinct) : DistinctEntries (entries ++ [(key, node)]) :=
  put_new hfree node ▸ h.put hnode

theorem of_lookup (h : DistinctEntries entries) (hnode : entries.lookup key = some node) :
    node.Distinct :=
  h.nodes (key, node) ((Sorted.lookup_eq_some_iff_mem h.keys).1 hnode)

theorem of_table {implied dotted : Bool} (h : (Node.table implied dotted entries).Distinct) :
    DistinctEntries entries := by
  cases h with
  | table _ _ hkeys h => exact ⟨hkeys, h⟩

theorem table (h : DistinctEntries entries) (implied dotted : Bool) :
    (Node.table implied dotted entries).Distinct := .table implied dotted h.keys h.nodes

theorem of_tables {last : Entries} {others : List Entries} (h : (Node.tables last others).Distinct) :
    ∀ entries ∈ last :: others, DistinctEntries entries := by
  cases h with
  | tables hkeys h => exact fun entries hentries => ⟨hkeys entries hentries, h entries hentries⟩

theorem tables {last : Entries} {others : List Entries}
    (h : ∀ entries ∈ last :: others, DistinctEntries entries) : (Node.tables last others).Distinct :=
  .tables (fun entries hentries => (h entries hentries).keys)
    fun entries hentries => (h entries hentries).nodes

variable {t t' : Table}

/-- A change deep inside keeps the tables around it as they should be. -/
theorem change {dotted : Bool} {f : Table → Option Table}
    (hf : ∀ {t t' : Table}, DistinctEntries t.entries → f t = some t' → DistinctEntries t'.entries)
    {path : List String} (h : DistinctEntries t.entries) (hchange : t.change dotted f path = some t') :
    DistinctEntries t'.entries := by
  induction path generalizing t t' with
  | nil => exact hf h hchange
  | cons key rest ih =>
    rw [Table.change.eq_def] at hchange
    simp only at hchange
    -- under the key is nothing, a value, an array of tables, or a table
    split at hchange
    · obtain ⟨made, hmade, ⟨⟩⟩ := Option.bind_eq_some_iff.1 hchange
      exact h.put ((ih nil hmade).table _ _)
    · cases hchange
    · rename_i last others hlookup
      obtain ⟨changed, hchanged, ⟨⟩⟩ := Option.bind_eq_some_iff.1 hchange
      have htables := of_tables (h.of_lookup hlookup)
      obtain ⟨hlast, hothers⟩ := List.forall_mem_cons.1 htables
      exact h.put (tables (List.forall_mem_cons.2 ⟨ih hlast hchanged, hothers⟩))
    · rename_i implied isDotted entries hlookup
      split at hchange
      · cases hchange
      · obtain ⟨changed, hchanged, ⟨⟩⟩ := Option.bind_eq_some_iff.1 hchange
        exact h.put ((ih (of_table (h.of_lookup hlookup)) hchanged).table _ _)

/-- Adding a key to a table fails if it is there. -/
theorem add {v : Value} (hv : v.Distinct) (h : DistinctEntries t.entries)
    (hadd : t.add key v = some t') : DistinctEntries t'.entries := by
  unfold Table.add at hadd
  split at hadd
  · cases hadd
  · rename_i hfree
    cases hadd
    exact h.append hfree (.value hv)

/-- Assigning goes along a path and adds the key at its end. -/
theorem assign {path : List String} {v : Value} (hv : v.Distinct) (h : DistinctEntries t.entries)
    (hassign : t.assign path key v = some t') : DistinctEntries t'.entries := by
  refine h.change (fun hinner hadd => ?_) hassign
  split at hadd
  · cases hadd
  · exact hinner.add hv hadd

/-- Opening a table by a header makes it, or goes on with one that is only implied. -/
theorem openTable {path : List String} (h : DistinctEntries t.entries)
    (hopen : t.openTable path key = some t') : DistinctEntries t'.entries := by
  refine h.change (fun hinner hopen => ?_) hopen
  split at hopen
  · rename_i hfree
    cases hopen
    exact hinner.append hfree (nil.table _ _)
  · rename_i hlookup
    cases hopen
    exact hinner.put ((of_table (hinner.of_lookup hlookup)).table _ _)
  · cases hopen

theorem openArrayTable {path : List String} (h : DistinctEntries t.entries)
    (hopen : t.openArrayTable path key = some t') : DistinctEntries t'.entries := by
  refine h.change (fun hinner hopen => ?_) hopen
  split at hopen
  · rename_i hfree
    cases hopen
    exact hinner.append hfree (tables (List.forall_mem_singleton.2 nil))
  · rename_i hlookup
    cases hopen
    have htables := of_tables (hinner.of_lookup hlookup)
    exact hinner.put (tables (List.forall_mem_cons.2 ⟨nil, htables⟩))
  · cases hopen

end DistinctEntries

/-! ## Construction over -/

theorem freezeEntries_eq_map (entries : Entries) :
    Node.freeze.freezeEntries entries = entries.map (Prod.map id Node.freeze) := by
  induction entries with
  | nil => rfl
  | cons entry rest ih =>
    rw [Node.freeze.freezeEntries, ih]
    rfl

/-- The tables of an array are frozen one by one, in front of those frozen before. -/
theorem mem_freezeTables {before : List Entries} {after : List Value} {v : Value}
    (h : v ∈ Node.freeze.freezeTables before after) :
    (∃ entries ∈ before, v = .table (Node.freeze.freezeEntries entries)) ∨ v ∈ after := by
  induction before generalizing after with
  | nil => exact .inr h
  | cons entries before ih =>
    rw [Node.freeze.freezeTables] at h
    obtain ⟨other, hother, hv⟩ | hv := ih h
    · exact .inl ⟨other, List.mem_cons_of_mem _ hother, hv⟩
    · obtain hv | hv := List.mem_cons.1 hv
      · exact .inl ⟨entries, List.mem_cons_self, hv⟩
      · exact .inr hv

/-- A frozen table names no key twice if its entries name none twice. -/
theorem distinct_freezeEntries (hkeys : (entries.map Prod.fst).Nodup)
    (h : ∀ entry ∈ entries, entry.2.freeze.Distinct) :
    (Value.table (Node.freeze.freezeEntries entries)).Distinct := by
  rw [freezeEntries_eq_map]
  refine .table ?_ ?_
  · rwa [List.map_map]
  · intro entry hentry
    obtain ⟨given, hgiven, rfl⟩ := List.mem_map.1 hentry
    exact h given hgiven

/-- A document that names no key twice while it is read names none twice when it is finished. -/
theorem Node.Distinct.freeze (h : node.Distinct) : node.freeze.Distinct := by
  induction h with
  | value h => exact h
  | table _ _ hkeys _ ih => exact distinct_freezeEntries hkeys ih
  | @tables last others hkeys _ ih =>
    refine .array fun item hitem => ?_
    obtain ⟨entries, hentries, rfl⟩ | hlast := mem_freezeTables hitem
    · have hmem : entries ∈ last :: others := List.mem_cons_of_mem last hentries
      exact distinct_freezeEntries (hkeys _ hmem) (ih _ hmem)
    · cases List.mem_singleton.1 hlast
      exact distinct_freezeEntries (hkeys _ List.mem_cons_self) (ih _ List.mem_cons_self)

theorem DistinctEntries.freeze {t : Table} (h : DistinctEntries t.entries) : t.node.freeze.Distinct :=
  (h.table _ _).freeze

/-! ## Values -/

/-- A number has no keys. -/
theorem distinct_of_decimal? {negative : Bool} {cs : List Char} {v : Value}
    (h : decimal? negative cs = some v) : v.Distinct := by
  obtain ⟨whole, -, h⟩ := Option.bind_eq_some_iff.1 h
  -- whole number, with a fraction, or with an exponent
  dsimp only at h
  split at h
  · split at h
    · cases h
      exact .integer _
    · obtain ⟨fraction, -, h⟩ := Option.bind_eq_some_iff.1 h
      cases h
      exact .float _
  · obtain ⟨fraction, -, h⟩ := Option.bind_eq_some_iff.1 h
    obtain ⟨exponent, -, h⟩ := Option.bind_eq_some_iff.1 h
    cases h
    exact .float _

theorem distinct_of_signed? {negative : Bool} {cs : List Char} {v : Value}
    (h : signed? negative cs = some v) : v.Distinct := by
  unfold signed? at h
  split at h
  · cases h
    exact .float _
  · cases h
    exact .float _
  · exact distinct_of_decimal? h

theorem distinct_of_number? {cs : List Char} {v : Value} (h : number? cs = some v) : v.Distinct := by
  unfold number? at h
  split at h
  · exact distinct_of_signed? h
  · exact distinct_of_signed? h
  · split at h
    · cases h
      exact .integer _
    · exact distinct_of_signed? h

theorem distinct_of_scalar? {cs : List Char} {v : Value} (h : scalar? cs = some v) : v.Distinct := by
  unfold scalar? at h
  split at h
  · cases h
    exact .boolean _
  · cases h
    exact .boolean _
  · split at h
    · cases h
      exact .datetime _
    · exact distinct_of_number? h

/-- What is read names no key twice. -/
def ReadsDistinct (read : Reader Value) : Prop :=
  ∀ {cs v rest}, read cs = some (v, rest) → v.Distinct

/-- A value without parts has no keys. -/
theorem readsDistinct_scalar : ReadsDistinct scalar := by
  intro cs v rest h
  unfold scalar at h
  simp only at h
  split at h
  · split at h <;>
      · obtain ⟨read, hread, ⟨⟩⟩ := Option.map_eq_some_iff.1 h
        exact distinct_of_scalar? hread
  · obtain ⟨read, hread, ⟨⟩⟩ := Option.map_eq_some_iff.1 h
    exact distinct_of_scalar? hread

variable {read : Reader Value} (hread : ReadsDistinct read)

include hread

/-- An array is distinct if what it is made of was read so. -/
theorem distinct_of_arrayItems {fuel : Nat} {cs : List Char} {items : List Value} {rest : List Char}
    (h : arrayItems read fuel cs = some (items, rest)) : ∀ item ∈ items, item.Distinct := by
  induction fuel generalizing cs items rest with
  | zero => cases h
  | succ fuel ih =>
    obtain ⟨start, -, h⟩ := Option.bind_eq_some_iff.1 h
    split at h
    · cases h
      exact nofun
    · obtain ⟨⟨x, more⟩, hx, h⟩ := Option.bind_eq_some_iff.1 h
      obtain ⟨after, -, h⟩ := Option.bind_eq_some_iff.1 h
      -- a comma, the end, or something that may not stand there
      split at h
      · obtain ⟨⟨xs, more⟩, hxs, h⟩ := Option.bind_eq_some_iff.1 h
        cases h
        exact List.forall_mem_cons.2 ⟨hread hx, ih hxs⟩
      · cases h
        exact List.forall_mem_singleton.2 (hread hx)
      · cases h

theorem distinct_of_assignment {cs : List Char} {path : List String} {key : String} {v : Value}
    {rest : List Char} (h : assignment read cs = some (((path, key), v), rest)) : v.Distinct := by
  obtain ⟨⟨given, more⟩, -, h⟩ := Option.bind_eq_some_iff.1 h
  simp only at h
  split at h
  · obtain ⟨⟨x, more⟩, hx, h⟩ := Option.bind_eq_some_iff.1 h
    cases h
    exact hread hx
  · cases h

/-- An inline table is built by assignments, each of which keeps it distinct. -/
theorem distinct_of_inlineEntries {fuel : Nat} {t t' : Table} (ht : DistinctEntries t.entries)
    {cs rest : List Char} (h : inlineEntries read fuel t cs = some (t', rest)) :
    DistinctEntries t'.entries := by
  induction fuel generalizing t cs rest with
  | zero => cases h
  | succ fuel ih =>
    obtain ⟨start, -, h⟩ := Option.bind_eq_some_iff.1 h
    split at h
    · cases h
      exact ht
    · -- one assignment, and then the rest with the table it has made
      obtain ⟨⟨⟨⟨path, key⟩, x⟩, more⟩, hx, h⟩ := Option.bind_eq_some_iff.1 h
      obtain ⟨assigned, hassigned, h⟩ := Option.bind_eq_some_iff.1 h
      have hassigned := ht.assign (distinct_of_assignment hread hx) hassigned
      obtain ⟨after, -, h⟩ := Option.bind_eq_some_iff.1 h
      split at h
      · exact ih hassigned h
      · cases h
        exact hassigned
      · cases h

omit hread

/-- Values of any depth name no key twice, by induction on the depth that is left for nesting. -/
theorem readsDistinct_value (depth : Nat) : ReadsDistinct (value depth) := by
  induction depth using Nat.strongRecOn with
  | ind depth ih =>
    intro cs v rest h
    rw [value.eq_def] at h
    -- what is in an array or an inline table is nested less deep
    split at h
    · obtain ⟨text, -, ⟨⟩⟩ := Option.map_eq_some_iff.1 h
      exact .text _
    · obtain ⟨text, -, ⟨⟩⟩ := Option.map_eq_some_iff.1 h
      exact .text _
    · obtain ⟨⟨items, more⟩, hitems, ⟨⟩⟩ := Option.map_eq_some_iff.1 h
      exact .array (distinct_of_arrayItems (ih _ (Nat.lt_succ_self _)) hitems)
    · obtain ⟨⟨table, more⟩, htable, ⟨⟩⟩ := Option.map_eq_some_iff.1 h
      exact (distinct_of_inlineEntries (ih _ (Nat.lt_succ_self _)) .nil htable).freeze
    · exact readsDistinct_scalar h

/-! ## Files -/

/-- Every line keeps the table distinct that the document has built so far. -/
theorem distinct_of_lines {fuel : Nat} {inside : List String} {t t' : Table} {cs : List Char}
    (ht : DistinctEntries t.entries) (h : lines fuel inside t cs = some t') :
    DistinctEntries t'.entries := by
  induction fuel generalizing inside t cs with
  | zero => cases h
  | succ fuel ih =>
    obtain ⟨start, -, h⟩ := Option.bind_eq_some_iff.1 h
    -- the end of the file, the header of an array, that of a table, or a key with its value
    split at h
    · cases h
      exact ht
    · obtain ⟨⟨⟨path, key⟩, more⟩, -, h⟩ := Option.bind_eq_some_iff.1 h
      obtain ⟨opened, hopened, h⟩ := Option.bind_eq_some_iff.1 h
      exact ih (ht.openArrayTable hopened) h
    · obtain ⟨⟨⟨path, key⟩, more⟩, -, h⟩ := Option.bind_eq_some_iff.1 h
      obtain ⟨opened, hopened, h⟩ := Option.bind_eq_some_iff.1 h
      exact ih (ht.openTable hopened) h
    · obtain ⟨⟨⟨⟨path, key⟩, x⟩, more⟩, hx, h⟩ := Option.bind_eq_some_iff.1 h
      obtain ⟨assigned, hassigned, h⟩ := Option.bind_eq_some_iff.1 h
      obtain ⟨after, -, h⟩ := Option.bind_eq_some_iff.1 h
      have hv := distinct_of_assignment (readsDistinct_value maxDepth) hx
      exact ih (ht.change (fun hinner => hinner.assign hv) hassigned) h

/-- A file is read as a table, and no table in it names a key twice. -/
theorem distinct_of_read? {source : String} {v : Value} (h : read? source = some v) :
    v.Distinct ∧ ∃ entries, v = .table entries := by
  obtain ⟨t, ht, rfl⟩ := Option.map_eq_some_iff.1 h
  exact ⟨(distinct_of_lines .nil ht).freeze, _, rfl⟩

end Stencil.Toml
