import Mathlib.Data.Finset.Card
import Stencil.Files.Scan

/-!
# How deep a walk gets

A scan never has to give up for lack of depth. Every step of its walk down leaves less *room*: a
directory inside another one has fewer directories below it, and a link leads to a directory that is
not being walked, so fewer remain that are not (`room_entry_lt`, `room_link_lt`). What a scan may enter
is more than the room that it starts with (`room_lt_walkDepth`).
-/

namespace Stencil.Files

namespace Node

def directories : Node → List Location
  | directory entries => [] :: directoriesBelow entries
  | _ => []
where
  /-- The locations of all directories at and below entries. -/
  directoriesBelow : List (Name × Node) → List Location
    | [] => []
    | (name, node) :: rest => (directories node).map (name :: ·) ++ directoriesBelow rest

mutual

/-- The locations of directories are as many as are counted. -/
theorem length_directories : (node : Node) → node.directories.length = node.directoryCount
  | .file _ => rfl
  | .link _ => rfl
  | .directory entries => by
    rw [directories, directoryCount, List.length_cons, length_directoriesBelow entries, Nat.add_comm]

theorem length_directoriesBelow : (entries : List (Name × Node)) →
    (directories.directoriesBelow entries).length = directoryCount.countBelow entries
  | [] => rfl
  | (name, node) :: rest => by
    rw [directories.directoriesBelow, directoryCount.countBelow, List.length_append, List.length_map,
      length_directories node, length_directoriesBelow rest]

end

theorem mem_directoriesBelow {entries : List (Name × Node)} {name : Name} {node : Node}
    (h : entries.lookup name = some node) {location : Location} (hmem : location ∈ node.directories) :
    name :: location ∈ directories.directoriesBelow entries := by
  induction entries with
  | nil => cases h
  | cons entry rest ih =>
    obtain ⟨other, there⟩ := entry
    rw [directories.directoriesBelow, List.mem_append]
    rw [List.lookup_cons] at h
    -- the name is found at its first entry, or further on
    split at h
    · rename_i hname
      cases h
      rw [beq_iff_eq] at hname
      exact .inl (List.mem_map.2 ⟨location, hmem, by rw [hname]⟩)
    · exact .inr (ih h)

/-- Every directory of the tree is among them. -/
theorem mem_directories {root : Node} {location : Location} {entries : List (Name × Node)}
    (h : root.descend? location = some (.directory entries)) : location ∈ root.directories := by
  induction location generalizing root with
  | nil =>
    cases h
    exact List.mem_cons_self
  | cons name rest ih =>
    cases root with
    | file content => cases h
    | link target => cases h
    | directory inside =>
      obtain ⟨next, hnext, hrest⟩ := Option.bind_eq_some_iff.1 h
      exact List.mem_cons_of_mem _ (mem_directoriesBelow hnext (ih hrest))

/-- An entry has no more directories than all entries together. -/
theorem directoryCount_le_countBelow {entries : List (Name × Node)} {entry : Name × Node}
    (h : entry ∈ entries) : entry.2.directoryCount ≤ directoryCount.countBelow entries := by
  induction entries with
  | nil => cases h
  | cons first rest ih =>
    rw [directoryCount.countBelow]
    rcases List.mem_cons.1 h with rfl | h
    · exact Nat.le_add_right _ _
    · exact (ih h).trans (Nat.le_add_left _ _)

/-- A part of the tree has no more directories than the tree. -/
theorem directoryCount_le_of_descend? {root : Node} {location : Location} {node : Node}
    (h : root.descend? location = some node) : node.directoryCount ≤ root.directoryCount := by
  -- by the way down: every step goes to an entry, which has no more directories than its parent
  induction location generalizing root with
  | nil =>
    cases h
    exact Nat.le_refl _
  | cons name rest ih =>
    cases root with
    | file content => cases h
    | link target => cases h
    | directory inside =>
      obtain ⟨next, hnext, hrest⟩ := Option.bind_eq_some_iff.1 h
      obtain ⟨before, after, rfl, -⟩ := List.lookup_eq_some_iff.1 hnext
      have hmem : (name, next) ∈ before ++ (name, next) :: after :=
        List.mem_append_right before List.mem_cons_self
      have hnext : next.directoryCount ≤ _ := directoryCount_le_countBelow hmem
      have hrest := ih hrest
      rw [directoryCount]
      omega

end Node

section Room

variable (root : Node)

/-- How many directories of the tree are not among those being walked. -/
def unwalked (above : List Location) : Nat := (root.directories.toFinset \ above.toFinset).card

/-- A bound on how much deeper a walk can get that is in a directory with these entries. -/
def room (above : List Location) (entries : List (Name × Node)) : Nat :=
  unwalked root above * (root.directoryCount + 1) + Node.directoryCount.countBelow entries

/-- Standing in one more directory leaves no more to enter. -/
theorem unwalked_cons_le (location : Location) (above : List Location) :
    unwalked root (location :: above) ≤ unwalked root above := by
  refine Finset.card_le_card (Finset.sdiff_subset_sdiff (Finset.Subset.refl _) ?_)
  rw [List.toFinset_cons]
  exact Finset.subset_insert _ _

variable {root}

/-- A directory in the tree that was not yet above counts: this is what makes the walk through links
end. -/
theorem unwalked_cons_lt {location : Location} {above : List Location}
    (hmem : location ∈ root.directories) (hnew : location ∉ above) :
    unwalked root (location :: above) < unwalked root above := by
  refine Finset.card_lt_card ?_
  rw [Finset.ssubset_iff_of_subset]
  · refine ⟨location, ?_, ?_⟩
    · simp [hmem, hnew]
    · simp
  · refine Finset.sdiff_subset_sdiff (Finset.Subset.refl _) ?_
    rw [List.toFinset_cons]
    exact Finset.subset_insert _ _

/-- A directory inside another one has less room. -/
theorem room_entry_lt {entries inside : List (Name × Node)} {name : Name}
    (h : (name, Node.directory inside) ∈ entries) (location : Location) (above : List Location) :
    room root (location :: above) inside < room root above entries := by
  have hcount := Node.directoryCount_le_countBelow h
  rw [Node.directoryCount] at hcount
  have hunwalked := Nat.mul_le_mul_right (root.directoryCount + 1)
    (unwalked_cons_le root location above)
  unfold room
  omega

/-- A directory that is not being walked has less room than those that are. -/
theorem room_link_lt {location : Location} {entries : List (Name × Node)}
    (h : root.descend? location = some (.directory entries)) {above : List Location}
    (hnew : location ∉ above) (inside : List (Name × Node)) :
    room root (location :: above) entries < room root above inside := by
  have hcount := Node.directoryCount_le_of_descend? h
  rw [Node.directoryCount] at hcount
  have hunwalked := Nat.mul_le_mul_right (root.directoryCount + 1)
    (unwalked_cons_lt (Node.mem_directories h) hnew)
  rw [Nat.succ_mul] at hunwalked
  unfold room
  omega

/-- A scan may go deeper than there is room. -/
theorem room_lt_walkDepth {fs : FileSystem} {location : Location} {entries : List (Name × Node)}
    (h : fs.root.descend? location = some (.directory entries)) (above : List Location) :
    room fs.root above entries < fs.walkDepth := by
  have hcount := Node.directoryCount_le_of_descend? h
  rw [Node.directoryCount] at hcount
  have hunwalked : unwalked fs.root above ≤ fs.root.directoryCount := by
    rw [← Node.length_directories]
    exact (Finset.card_le_card Finset.sdiff_subset).trans (List.toFinset_card_le _)
  have hmul := Nat.mul_le_mul_right (fs.root.directoryCount + 1) hunwalked
  unfold room FileSystem.walkDepth
  rw [Nat.succ_mul fs.root.directoryCount]
  omega

end Room

end Stencil.Files
