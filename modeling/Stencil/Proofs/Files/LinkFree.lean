import Stencil.Proofs.Files.Listing

/-!
# Trees without links, wherever they are

Below a directory without links a path leads to what the tree has at the end of the route
(`descend?_of_find`). So what a scan lists is read off the tree (`lists_iff`), and the only entries at
which it cannot go on are those whose paths are refused for their length (`refused_of_blocks`). Two
directories that are alike differ in nothing else.
-/

namespace Stencil

namespace Files

namespace Node

/-- What an entry is, without what is in it. -/
def face : Node → Node
  | directory _ => directory []
  | node => node

/-- Two trees have the same at every route: the same file or link, or a directory, or nothing. -/
def Alike (a b : Node) : Prop := ∀ route, (a.descend? route).map face = (b.descend? route).map face

/-- Trees that are alike have the same files at the same places. -/
theorem Alike.file {a b : Node} (h : a.Alike b) {route : Location} {content : Content} :
    a.descend? route = some (.file content) ↔ b.descend? route = some (.file content) := by
  have hface (node : Node) : node.face = .file content ↔ node = .file content := by
    cases node <;> simp [face]
  have hmap (found : Option Node) :
      found = some (.file content) ↔ found.map face = some (.file content) := by
    cases found with
    | none => simp
    | some node => simp [hface]
  rw [hmap, hmap (b.descend? route), h route]

theorem LinkFree.of_lookup {entries : List (Name × Node)} (h : (Node.directory entries).LinkFree)
    {name : Name} {node : Node} (hlookup : entries.lookup name = some node) : node.LinkFree := by
  cases h with
  | directory _ below => exact below _ (mem_of_lookup hlookup)

/-- Below a directory without links there is none either. -/
theorem LinkFree.of_descend? {root : Node} (h : root.LinkFree) {route : Location} {node : Node}
    (hdescend : root.descend? route = some node) : node.LinkFree := by
  induction route generalizing root with
  | nil =>
    cases hdescend
    exact h
  | cons name rest ih =>
    obtain ⟨next, hnext, hrest⟩ := Option.bind_eq_some_iff.1 hdescend
    cases root with
    | directory entries => exact ih (h.of_lookup hnext) hrest
    | file content => cases hnext
    | link target => cases hnext

theorem LinkFree.ne_link {node : Node} (h : node.LinkFree) (target : Path) : node ≠ .link target := by
  rintro rfl
  cases h

theorem WellFormed.valid_of_descend? {root : Node} (h : root.WellFormed) {route : Location}
    {node : Node} (hdescend : root.descend? route = some node) : ∀ name ∈ route, name.Valid := by
  -- by the route from the root down
  induction route generalizing root with
  | nil => simp
  | cons first rest ih =>
    obtain ⟨next, hnext, hrest⟩ := Option.bind_eq_some_iff.1 hdescend
    cases root with
    | file content => cases hnext
    | link target => cases hnext
    | directory entries =>
      intro name hname
      rcases List.mem_cons.1 hname with rfl | hname
      · exact (h.entries.1 _ (mem_of_lookup hnext)).1
      · exact ih (h.of_lookup hnext) hrest name hname

/-- What is below something is an entry of a directory. -/
theorem exists_parent_of_descend? {root : Node} {route : Location} {name : Name} {node : Node}
    (h : root.descend? (route ++ [name]) = some node) :
    ∃ entries, root.descend? route = some (.directory entries) ∧ entries.lookup name = some node := by
  rw [descend?_append] at h
  obtain ⟨above, habove, hnode⟩ := Option.bind_eq_some_iff.1 h
  obtain ⟨next, hnext, hsame⟩ := Option.bind_eq_some_iff.1 hnode
  cases hsame
  cases above with
  | directory entries => exact ⟨entries, habove, hnext⟩
  | file content => cases hnext
  | link target => cases hnext

end Node

end Files

namespace FileSystem

open Files

section LinkFree

variable {fs : FileSystem} {base : Path} (hbase : Path.IsResolved base) {location : Location}
  {entries : List (Name × Node)} (hfind : fs.find base = .ok (location, .directory entries))
  (hfree : (Node.directory entries).LinkFree)

include hbase hfind hfree

/-- A path leads to what the tree has there. -/
theorem descend?_of_find {route : List Name} (hroute : ∀ name ∈ route, name.Valid)
    {found : Location × Node} (h : fs.find (Path.along base route) = .ok found) :
    (Node.directory entries).descend? route = some found.2 := by
  -- the route is taken from its end, since `find` resolves the parent of the last name first
  induction route using List.reverseRecOn generalizing found with
  | nil =>
    have hsame := h.symm.trans hfind
    cases hsame
    rfl
  | append_singleton route name ih =>
    obtain ⟨hbefore, hlast⟩ := List.forall_mem_append.1 hroute
    have hname : Name.Valid name := hlast name List.mem_cons_self
    obtain ⟨above, inside, node, habove, hentry⟩ := exists_parent_of_find hbase hbefore hname h
    have hparent := ih hbefore habove
    have hlinkFree := (hfree.of_descend? hparent).of_lookup hentry
    rcases find_child hbase hbefore hname habove hentry hlinkFree.ne_link with hchild | ⟨hchild, -⟩
    · rw [hchild] at h
      cases h
      rw [Node.descend?_entry hparent, hentry]
    · rw [hchild] at h
      cases h

/-- What the operating system finds is what the tree holds, as no link leads elsewhere. -/
theorem descend?_of_hasEntry {route : List Name} {name : Name} {node : Node}
    (h : fs.HasEntry base route name node) :
    (Node.directory entries).descend? (route ++ [name]) = some node := by
  obtain ⟨hvalid, above, inside, habove, hentry⟩ := h
  rw [Node.descend?_entry (descend?_of_find hbase hfind hfree hvalid habove), hentry]

variable (hentries : (Node.directory entries).WellFormed)

include hentries

/-- An entry is found in its place, or its path is refused for its length. -/
theorem find_of_hasEntry {route : List Name} {name : Name} {node : Node}
    (h : fs.HasEntry base route name node) :
    (∃ above, fs.find (Path.along base (route ++ [name])) = .ok (above, node)) ∨
      fs.find (Path.along base (route ++ [name])) = .error .invalidName ∧
        TooLong (Path.along base (route ++ [name])) := by
  have hdescend := descend?_of_hasEntry hbase hfind hfree h
  have hname : Name.Valid name := hentries.valid_of_descend? hdescend name (by simp)
  obtain ⟨hvalid, above, inside, habove, hentry⟩ := h
  rcases find_child hbase hvalid hname habove hentry (hfree.of_descend? hdescend).ne_link with
    hchild | hrefused
  · exact .inl ⟨_, hchild⟩
  · exact .inr hrefused

/-- Everything in the tree is found in its place, unless its path is too long. -/
theorem find_or_tooLong {route : List Name} {node : Node}
    (h : (Node.directory entries).descend? route = some node) :
    (∃ above, fs.find (Path.along base route) = .ok (above, node)) ∨
      TooLong (Path.along base route) := by
  -- again from the end: what is below a path that is too long is so too
  induction route using List.reverseRecOn generalizing node with
  | nil =>
    cases h
    exact .inl ⟨location, hfind⟩
  | append_singleton route name ih =>
    obtain ⟨inside, hparent, hentry⟩ := Node.exists_parent_of_descend? h
    obtain ⟨hvalid, hlast⟩ := List.forall_mem_append.1 (hentries.valid_of_descend? h)
    rcases ih hparent with ⟨above, habove⟩ | hlong
    · have hhas : fs.HasEntry base route name node := ⟨hvalid, above, inside, habove, hentry⟩
      exact (find_of_hasEntry hbase hfind hfree hentries hhas).imp_right And.right
    · exact .inr (tooLong_along_append hbase hvalid (hlast name List.mem_cons_self) hlong)

/-- Where a scan cannot go on, a path is refused for its length. -/
theorem refused_of_blocks {route : List Name} {name : Name} {fault : Fault}
    (h : fs.Blocks base route name fault) :
    fault = .invalidName ∧ TooLong (Path.along base (route ++ [name])) ∧
      ∃ node, (Node.directory entries).descend? (route ++ [name]) = some node := by
  cases h with
  -- without links an entry can only be refused for the length of its path
  | @refused node fault hentry hnode hrefused =>
    obtain ⟨above, hchild⟩ | ⟨hchild, hlong⟩ :=
      find_of_hasEntry hbase hfind hfree hentries hentry
    · rw [hchild] at hrefused
      cases hrefused
    · rw [hchild] at hrefused
      cases hrefused
      exact ⟨rfl, hlong, node, descend?_of_hasEntry hbase hfind hfree hentry⟩
  -- a loop needs a link
  | loop hentry _ _ _ =>
    have hlink := descend?_of_hasEntry hbase hfind hfree hentry
    exact absurd rfl ((hfree.of_descend? hlink).ne_link _)

/-- If nothing stops a scan, it comes to every directory. -/
theorem find_directory (hopen : ∀ route name fault, ¬ fs.Blocks base route name fault)
    {route : List Name} {inside : List (Name × Node)}
    (h : (Node.directory entries).descend? route = some (.directory inside)) :
    ∃ above, fs.find (Path.along base route) = .ok (above, .directory inside) := by
  -- by the route from its end; a directory that were refused would block the scan
  induction route using List.reverseRecOn generalizing inside with
  | nil =>
    cases h
    exact ⟨location, hfind⟩
  | append_singleton route name ih =>
    obtain ⟨more, hparent, hentry⟩ := Node.exists_parent_of_descend? h
    obtain ⟨above, habove⟩ := ih hparent
    have hhas : fs.HasEntry base route name (.directory inside) :=
      ⟨hentries.valid_of_descend? hparent, above, more, habove, hentry⟩
    obtain hfound | ⟨hrefused, -⟩ := find_of_hasEntry hbase hfind hfree hentries hhas
    · exact hfound
    · exact absurd (.refused hhas (by simp) hrefused) (hopen route name _)

/-- What a scan lists are the files of the tree. -/
theorem lists_iff (hopen : ∀ route name fault, ¬ fs.Blocks base route name fault) {ext : Extension}
    {route : List Name} (hroute : IsRoute ext route) :
    fs.Lists base route ↔
      ∃ content, (Node.directory entries).descend? route = some (.file content) := by
  constructor
  · rintro ⟨before, name, node, rfl, hentry, hfile⟩
    have hdescend := descend?_of_hasEntry hbase hfind hfree hentry
    rcases hfile with ⟨content, rfl⟩ | ⟨target, -, -, rfl, -⟩
    · exact ⟨content, hdescend⟩
    · -- the second way to list a file leads over a link
      exact absurd rfl ((hfree.of_descend? hdescend).ne_link target)
  · rintro ⟨content, hdescend⟩
    obtain ⟨before, name, rfl, -⟩ := hroute.ending
    obtain ⟨inside, hparent, hentry⟩ := Node.exists_parent_of_descend? hdescend
    obtain ⟨above, habove⟩ := find_directory hbase hfind hfree hentries hopen hparent
    have hvalid := hentries.valid_of_descend? hparent
    exact ⟨before, name, _, rfl, ⟨hvalid, above, inside, habove, hentry⟩, .inl ⟨content, rfl⟩⟩

/-- A listed file is read, or its path is refused for its length. -/
theorem find_of_lists {route : List Name} (h : fs.Lists base route) {content : Content}
    (hdescend : (Node.directory entries).descend? route = some (.file content)) :
    (∃ above, fs.find (Path.along base route) = .ok (above, .file content)) ∨
      fs.find (Path.along base route) = .error .invalidName ∧ TooLong (Path.along base route) := by
  obtain ⟨before, name, node, rfl, hentry, -⟩ := h
  have hsame := (descend?_of_hasEntry hbase hfind hfree hentry).symm.trans hdescend
  cases hsame
  exact find_of_hasEntry hbase hfind hfree hentries hentry

end LinkFree

end FileSystem

end Stencil
