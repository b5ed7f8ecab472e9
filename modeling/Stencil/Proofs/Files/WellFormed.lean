import Stencil.Files.Scan

/-!
# Walks in well-formed trees

In a well-formed tree the names in a directory are valid and distinct. A walk leads nowhere else than
to what is in the tree (`inTree_walk`), so wherever it leads, through links or not, that is well-formed
again (`wellFormed_walk`, `wellFormed_find`), and so is what an entry of a directory is once links are
followed (`wellFormed_reach`).
-/

namespace Stencil.Files

namespace Node

/-- The entries of a directory are well-formed and have valid and distinct names. -/
theorem WellFormed.entries {entries : List (Name × Node)}
    (h : (Node.directory entries).WellFormed) :
    (∀ entry ∈ entries, entry.1.Valid ∧ entry.2.WellFormed) ∧
      entries.Pairwise fun a b => a.1 ≠ b.1 := by
  cases h with
  | directory _ valid distinct below =>
    exact ⟨fun entry hentry => ⟨valid entry hentry, below entry hentry⟩, distinct⟩

theorem WellFormed.of_lookup {entries : List (Name × Node)} (h : (Node.directory entries).WellFormed)
    {name : Name} {node : Node} (hlookup : entries.lookup name = some node) : node.WellFormed := by
  obtain ⟨before, after, hentries, -⟩ := List.lookup_eq_some_iff.1 hlookup
  refine (h.entries.1 (name, node) ?_).2
  rw [hentries]
  exact List.mem_append_right before List.mem_cons_self

/-- Everything below a well-formed directory is well-formed. -/
theorem WellFormed.of_descend? {root : Node} (h : root.WellFormed) {location : Location}
    {node : Node} (hdescend : root.descend? location = some node) : node.WellFormed := by
  induction location generalizing root with
  | nil =>
    cases hdescend
    exact h
  | cons name rest ih =>
    unfold descend? at hdescend
    obtain ⟨next, hnext, hrest⟩ := Option.bind_eq_some_iff.1 hdescend
    cases root with
    | directory entries => exact ih (h.of_lookup hnext) hrest
    | file content => cases hnext
    | link target => cases hnext

/-- The way down is walked part by part. -/
theorem descend?_append (root : Node) (a b : Location) :
    root.descend? (a ++ b) = (root.descend? a).bind (·.descend? b) := by
  induction a generalizing root with
  | nil => rfl
  | cons name rest ih =>
    simp only [List.cons_append, descend?]
    cases root.entry? name with
    | none => rfl
    | some next => exact ih next

/-- An entry is found in the directory that it belongs to. -/
theorem descend?_entry {root : Node} {location : Location} {entries : List (Name × Node)}
    (h : root.descend? location = some (.directory entries)) (name : Name) :
    root.descend? (location ++ [name]) = entries.lookup name := by
  rw [descend?_append, h, Option.bind_some]
  show (entries.lookup name).bind (fun next => some next) = _
  cases entries.lookup name <;> rfl

end Node

/-- What there is at a place is well-formed. -/
def Place.WellFormed : Place → Prop
  | directory _ entries => (Node.directory entries).WellFormed
  | entry _ _ _ node => ∀ there ∈ node, there.WellFormed

theorem Place.WellFormed.of_node? {place : Place} (h : place.WellFormed) {location : Location}
    {node : Node} (hnode : place.node? = .ok (location, node)) : node.WellFormed := by
  unfold Place.node? at hnode
  split at hnode
  · cases hnode
    exact h
  · cases hnode
  · split at hnode
    · cases hnode
    · cases hnode
      exact h _ rfl

/-- The tree has at a place what the place says. It is no link, where links are followed. -/
def Place.InTree (root : Node) (aim : Aim) : Place → Prop
  | directory location entries => root.descend? location = some (.directory entries)
  | entry above name _ node =>
    (∃ entries, root.descend? above = some (.directory entries) ∧ entries.lookup name = node) ∧
      (aim.follows = true → ∀ target, node ≠ some (.link target))

/-- A place that is in the tree and holds an entry is the location of that entry; a walk that
follows the last link does not end at one. -/
theorem Place.InTree.descend? {root : Node} {aim : Aim} {place : Place}
    (h : place.InTree root aim) {location : Location} {node : Node}
    (hnode : place.node? = .ok (location, node)) :
    root.descend? location = some node ∧
      (aim.follows = true → ∀ target, node ≠ .link target) := by
  unfold Place.node? at hnode
  -- a place is a directory, the parent of nothing, or the parent of an entry
  split at hnode
  · cases hnode
    refine ⟨h, fun _ target hlink => ?_⟩
    cases hlink
  · cases hnode
  · obtain ⟨⟨entries, habove, hentry⟩, hfollowed⟩ := h
    split at hnode
    · cases hnode
    · cases hnode
      refine ⟨by rw [Node.descend?_entry habove, hentry], fun hfollows target hlink => ?_⟩
      exact hfollowed hfollows target (congrArg some hlink)

/-- So it is well-formed in a well-formed tree. -/
theorem Place.InTree.wellFormed {root : Node} (hroot : root.WellFormed) {aim : Aim} {place : Place}
    (h : place.InTree root aim) : place.WellFormed := by
  cases place with
  | directory location entries => exact hroot.of_descend? h
  | entry above name slashed node =>
    obtain ⟨⟨entries, habove, hentry⟩, -⟩ := h
    intro there hthere
    exact (hroot.of_descend? habove).of_lookup (hentry.trans hthere)

section Walk

variable {root : Node}

theorem inTree_walkPieces {aim : Aim} {again : Location → List Name → Except Fault Place}
    (hagain : ∀ location pieces place, again location pieces = .ok place → place.InTree root aim)
    {location : Location} {pieces : List Name} {place : Place}
    (h : walkPieces root aim again location pieces = .ok place) : place.InTree root aim := by
  induction pieces generalizing location with
  | nil =>
    unfold walkPieces at h
    split at h
    · rename_i entries hdescend
      cases h
      exact hdescend
    · cases h
    · cases h
  | cons piece rest ih =>
    unfold walkPieces at h
    split at h
    · rename_i entries hdescend
      simp only at h
      split at h
      · exact ih h
      split at h
      · exact ih h
      split at h
      · cases h
      split at h
      · cases h
      -- a name: it is free, or a link, or something else
      split at h
      · rename_i hlookup
        split at h
        · cases h
          exact ⟨⟨entries, hdescend, hlookup⟩, by simp⟩
        · cases h
      · rename_i target hlookup
        split at h
        · rename_i hstays
          cases h
          refine ⟨⟨entries, hdescend, hlookup⟩, fun hfollows => ?_⟩
          simp [hfollows] at hstays
        split at h
        · cases h
        · exact hagain _ _ _ h
      · rename_i node hnode hlookup
        split at h
        · cases h
          exact ⟨⟨entries, hdescend, hlookup⟩, fun _ => by simpa using hnode⟩
        · exact ih h
    · cases h
    · cases h

/-- A walk leads to what is in the tree. -/
theorem inTree_walk {aim : Aim} {links : Nat} {location : Location} {pieces : List Name}
    {place : Place} (h : walk root aim links location pieces = .ok place) : place.InTree root aim := by
  induction links generalizing location pieces place with
  | zero =>
    refine inTree_walkPieces ?_ h
    intro location pieces place hagain
    cases hagain
  | succ links ih => exact inTree_walkPieces (fun _ _ _ => ih) h

/-- A walk ends in the tree, so it ends at something well-formed. -/
theorem wellFormed_walk (hroot : root.WellFormed) {aim : Aim} {links : Nat} {location : Location}
    {pieces : List Name} {place : Place} (h : walk root aim links location pieces = .ok place) :
    place.WellFormed :=
  (inTree_walk h).wellFormed hroot

end Walk

end Stencil.Files

namespace Stencil.FileSystem

open Files

/-- What a path leads to in a well-formed tree is well-formed. -/
theorem wellFormed_find {fs : FileSystem} (hroot : fs.root.WellFormed) {p : Path}
    {location : Location} {node : Node} (h : fs.find p = .ok (location, node)) :
    node.WellFormed := by
  have hempty : (Node.directory []).WellFormed := .directory [] (by simp) .nil (by simp)
  -- the directory that the walk starts from may be one that was removed, which the tree does not
  -- hold
  have hplace {place : Place} (h : fs.place .look p = .ok place) : place.WellFormed := by
    unfold FileSystem.place at h
    split at h
    · cases h
    split at h
    · cases h
    split at h
    · cases h
    split at h
    · exact wellFormed_walk hroot h
    · unfold walkFromCurrent at h
      split at h
      · split at h
        · -- the current directory is gone, and is empty
          cases h
          exact hempty
        · split at h
          · exact wellFormed_walk hroot h
          · cases h
      · exact wellFormed_walk hroot h
  unfold find at h
  cases hp : fs.place .look p with
  | error fault =>
    rw [hp] at h
    cases h
  | ok place =>
    rw [hp] at h
    exact (hplace hp).of_node? h

end Stencil.FileSystem

namespace Stencil.Files

/-- What an entry of a well-formed directory is once links are followed is well-formed. -/
theorem wellFormed_reach {fs : FileSystem} (hroot : fs.root.WellFormed) {above : List Location}
    {shown : Path} {directory : Location} {name : Name} {node : Node} (hnode : node.WellFormed)
    {location : Location} {entries : List (Name × Node)}
    (h : reach fs above shown directory name node = .ok (.directory location entries)) :
    (Node.directory entries).WellFormed := by
  unfold reach at h
  split at h
  · cases h
  · split at h
    · cases h
      exact hnode
    · cases h
  · split at h
    · rename_i hfind
      split at h
      · cases h
      · cases h
        -- where the link leads is in the tree as well
        exact FileSystem.wellFormed_find hroot hfind
    · cases h
    · cases h

end Stencil.Files
