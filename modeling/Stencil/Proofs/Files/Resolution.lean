import Stencil.Partials.Provider
import Stencil.Proofs.Files.LinkFree
import Stencil.Proofs.Path.Composition

/-!
# Resolving a path keeps where it leads

The system walks along a path in the tree; resolving collapses its components and never looks at the
tree. Without links the two go hand in hand. A step of the walk either says nothing, or goes back to the
directory above, or enters an entry (`step_cases`), and the names that are kept while components are
collapsed are at every step the location of the walk (`foldl_push_of_walkPieces`). What there is at a
location is found again by walking along its names (`walk_of_descend?`). So a path that leads somewhere
is resolved to one that leads to the same place (`reached_resolvePath`).
-/

namespace Stencil

namespace Path

/-- At the root there is nothing to go up to. -/
theorem Lexical.push_up_rooted (names : List (List Char)) :
    (⟨true, 0, names⟩ : Lexical).push .up = ⟨true, 0, names.dropLast⟩ := by
  cases names <;> rfl

/-- A path is resolved by going along its components, from the root or from the current directory. -/
theorem resolve_rooted {current : List (List Char)} (hcurrent : ∀ name ∈ current, IsName name)
    {p : Path} (hne : p ≠ []) :
    resolve (some (⟨true, 0, current⟩ : Lexical).toPath) p =
      .ok ((componentsOf (segments p)).foldl Lexical.push
        ⟨true, 0, Files.startOf current p⟩).toPath := by
  unfold resolve Files.startOf
  rw [if_neg hne]
  -- an absolute path forgets the current directory, a relative one is pushed on top of its names
  cases habs : isAbsolute p with
  | true =>
    have hp : components p = .root :: componentsOf (segments p) := if_pos habs
    rw [if_pos rfl, if_pos rfl, collapse, lexical, Lexical.ofComponents, hp]
    rfl
  | false =>
    have hdir := (isResolved_toPath hcurrent).isAbsolute
    rw [if_neg Bool.false_ne_true, if_neg Bool.false_ne_true]
    show Except.ok (collapse (join _ p)) = _
    rw [collapse, lexical, Lexical.ofComponents,
      components_join (ne_nil_of_isAbsolute hdir) habs, List.foldl_append,
      components_rooted hcurrent, List.foldl_cons]
    show Except.ok (List.foldl Lexical.push
      ((current.map Component.name).foldl Lexical.push ⟨true, 0, []⟩) _).toPath = _
    rw [Lexical.foldl_push_names, List.nil_append]

end Path

namespace Files

/-- No name on the way is too long for the system. -/
def NamesFit (location : Location) : Prop := ∀ name ∈ location, byteLength name ≤ longestName

instance (location : Location) : Decidable (NamesFit location) := List.decidableBAll _ location

section Walk

variable {root : Node}

/-- A walk that comes to something was in a directory all the time. -/
theorem exists_directory_of_walkPieces {again : Location → List Name → Except Fault Place}
    {location : Location} {pieces : List Name} {found : Location × Node}
    (h : (walkPieces root .look again location pieces).bind Place.node? = .ok found) :
    ∃ entries, root.descend? location = some (.directory entries) := by
  cases hdescend : root.descend? location with
  | none => cases pieces <;> simp only [walkPieces, hdescend] at h <;> cases h
  | some node =>
    cases node with
    | directory entries => exact ⟨entries, rfl⟩
    | file content => cases pieces <;> simp only [walkPieces, hdescend] at h <;> cases h
    | link target => cases pieces <;> simp only [walkPieces, hdescend] at h <;> cases h

variable (hfree : root.LinkFree)

include hfree

/-- **One step of a walk.** A piece says nothing, or leads back to the directory above, or is the name
of an entry. That is the end, if only slashes come behind it; else the walk goes on behind it. -/
theorem step_cases {again : Location → List Name → Except Fault Place} {location : Location}
    {piece : Name} {rest : List Name} {found : Location × Node}
    (h : (walkPieces root .look again location (piece :: rest)).bind Place.node? = .ok found) :
    (Path.isIdle piece = true ∧
      (walkPieces root .look again location rest).bind Place.node? = .ok found) ∨
    (piece = ['.', '.'] ∧
      (walkPieces root .look again location.dropLast rest).bind Place.node? = .ok found) ∨
    (Path.isIdle piece = false ∧ piece ≠ ['.', '.'] ∧ byteLength piece ≤ longestName ∧
      (rest.all (· = []) = true ∧ found.1 = location ++ [piece] ∨
        (walkPieces root .look again (location ++ [piece]) rest).bind Place.node? = .ok found)) := by
  obtain ⟨entries, hdescend⟩ := exists_directory_of_walkPieces h
  cases hidle : Path.isIdle piece with
  | true =>
    rw [walkPieces_idle hidle] at h
    exact .inl ⟨rfl, h⟩
  | false =>
    by_cases hup : piece = ['.', '.']
    · simp only [walkPieces, hdescend, hidle, Bool.false_eq_true, if_false, if_pos hup] at h
      exact .inr (.inl ⟨hup, h⟩)
    refine .inr (.inr ⟨rfl, hup, ?_⟩)
    cases hentry : entries.lookup piece with
    | none =>
      -- a name that is free leads nowhere
      simp only [walkPieces, hdescend, hidle, hup, hentry, Bool.false_eq_true, if_false,
        decide_false, Bool.and_false, reduceCtorEq] at h
      split at h
      · cases h
      · split at h <;> cases h
    | some next =>
      have hlink := ((hfree.of_descend? hdescend).of_lookup hentry).ne_link
      rw [walkPieces_entry hdescend hidle hup hentry hlink] at h
      split at h
      · cases h
      rename_i hlong
      refine ⟨Nat.le_of_not_lt hlong, ?_⟩
      split at h
      · rename_i hslashes
        simp only [Except.bind, Place.node?] at h
        split at h
        · cases h
        · cases h
          exact .inl ⟨hslashes, rfl⟩
      · exact .inr h

omit hfree in
/-- Slashes alone say nothing. -/
theorem componentsOf_slashes {slashes : List Name} (h : slashes.all (· = []) = true) :
    Path.componentsOf slashes = [] := by
  induction slashes with
  | nil => rfl
  | cons piece rest ih =>
    simp only [List.all_cons, Bool.and_eq_true, decide_eq_true_eq] at h
    rw [h.1, Path.componentsOf_cons_of_isIdle rfl, ih h.2]

/-- **The whole walk.** The names that collapsing keeps are those of the location where the walk ends,
and all of them fit. By induction on the pieces, for every location that fits. -/
theorem foldl_push_of_walkPieces {again : Location → List Name → Except Fault Place}
    {location : Location} (hfits : NamesFit location) {pieces : List Name}
    {found : Location × Node}
    (h : (walkPieces root .look again location pieces).bind Place.node? = .ok found) :
    (Path.componentsOf pieces).foldl Path.Lexical.push ⟨true, 0, location⟩ = ⟨true, 0, found.1⟩ ∧
      NamesFit found.1 := by
  -- piece by piece; the fold and the walk stand at the same location after each
  induction pieces generalizing location with
  | nil =>
    unfold walkPieces at h
    split at h
    · cases h
      exact ⟨rfl, hfits⟩
    · cases h
    · cases h
  | cons piece rest ih =>
    -- an idle piece, one level up, or a name
    obtain ⟨hidle, hrest⟩ | ⟨rfl, hrest⟩ | ⟨hidle, hup, hshort, hname⟩ := step_cases hfree h
    · rw [Path.componentsOf_cons_of_isIdle hidle]
      exact ih hfits hrest
    · have hfits' : NamesFit location.dropLast := fun name hname =>
        hfits name (List.dropLast_subset location hname)
      rw [Path.componentsOf_cons_of_not_isIdle rfl]
      show List.foldl _ ((⟨true, 0, location⟩ : Path.Lexical).push .up) _ = _ ∧ _
      rw [Path.Lexical.push_up_rooted]
      exact ih hfits' hrest
    · have hfits' : NamesFit (location ++ [piece]) :=
        List.forall_mem_append.2 ⟨hfits, by simpa using hshort⟩
      have hpiece : Path.Component.ofPiece piece = .name piece := if_neg hup
      rw [Path.componentsOf_cons_of_not_isIdle hidle, hpiece, List.foldl_cons, Path.Lexical.push_name]
      obtain ⟨hslashes, hend⟩ | hrest := hname
      · rw [componentsOf_slashes hslashes, hend]
        exact ⟨rfl, hfits'⟩
      · exact ih hfits' hrest

/-- What there is at a location is reached along the names of the location, one after the other. -/
theorem walk_of_descend? (hroot : root.WellFormed) {entries : List (Name × Node)}
    (hdir : root = .directory entries) {location : Location} (hfits : NamesFit location) {node : Node}
    (h : root.descend? location = some node) (links : Nat) :
    (walk root .look links [] location).bind Place.node? = .ok (location, node) := by
  -- from the end: the walk to the parent is known, and the last name is one step more
  induction location using List.reverseRecOn generalizing node with
  | nil =>
    cases h
    obtain ⟨again, hagain⟩ := walk_eq_walkPieces root links
    rw [hagain, hdir]
    rfl
  | append_singleton above name ih =>
    obtain ⟨hfits, hlast⟩ := List.forall_mem_append.1 hfits
    obtain ⟨inside, habove, hentry⟩ := Node.exists_parent_of_descend? h
    have hname : Path.IsName name := (hroot.valid_of_descend? h name (by simp)).isName
    have hshort : ¬ longestName < byteLength name := Nat.not_lt.2 (hlast name List.mem_cons_self)
    have hlink := (hfree.of_descend? h).ne_link
    have hwalk := ih hfits habove
    obtain ⟨location, entries, links, hparent, hlonger⟩ | ⟨hnone, -⟩ :=
      walk_append_name root hname links [] above
    · rw [hwalk] at hparent
      cases hparent
      rw [hlonger, walk_entry habove hname hentry hlink, if_neg hshort]
      rfl
    · exact absurd hwalk (hnone above inside)

end Walk

end Files

namespace FileSystem

open Files

variable {fs : FileSystem}

/-- What the walk along the components of a path comes to, from the root or from the current directory.
The length of the whole path does not count. -/
def reached (fs : FileSystem) (p : Path) : Except Fault (Location × Node) :=
  (walk fs.root .look linkLimit (startOf fs.current p) (Path.segments p)).bind Place.node?

/-- The current directory is there, at a location whose names the system takes. -/
structure HasCurrent (fs : FileSystem) : Prop where
  kept : fs.currentGone = false
  isDirectory : ∃ entries, fs.root.descend? fs.current = some (.directory entries)
  fits : NamesFit fs.current

/-- The current directory is there, so the root is a directory. -/
theorem HasCurrent.root_eq (h : fs.HasCurrent) : ∃ entries, fs.root = .directory entries := by
  obtain ⟨entries, hentries⟩ := h.isDirectory
  cases hroot : fs.root with
  | directory entries => exact ⟨entries, rfl⟩
  | file content =>
    rw [hroot] at hentries
    cases hcurrent : fs.current <;> rw [hcurrent] at hentries <;> cases hentries
  | link target =>
    rw [hroot] at hentries
    cases hcurrent : fs.current <;> rw [hcurrent] at hentries <;> cases hentries

/-- The system finds what the walk comes to, unless it refuses the path as a whole. -/
theorem find_eq (hcurrent : fs.HasCurrent) (p : Path) :
    fs.find p =
      if p = [] then .error .notFound
      else if '\x00' ∈ p then .error .invalidInput
      else if longestPath < byteLength p then .error .invalidName
      else fs.reached p := by
  -- both refuse the same paths, and otherwise walk from the same place
  unfold find place reached startOf walkFromCurrent
  rw [hcurrent.kept]
  split
  · rfl
  split
  · rfl
  split
  · rfl
  · cases Path.isAbsolute p <;> rfl

/-- The walk comes to what is in the tree. -/
theorem descend?_of_reached {p : Path} {location : Location} {node : Node}
    (h : fs.reached p = .ok (location, node)) : fs.root.descend? location = some node := by
  unfold reached at h
  cases hplace : walk fs.root .look linkLimit (startOf fs.current p) (Path.segments p) with
  | error fault =>
    rw [hplace] at h
    cases h
  | ok place =>
    rw [hplace] at h
    exact ((inTree_walk hplace).descend? h).1

/-- No valid name holds a NUL, and separators are none. -/
theorem nul_not_mem_rooted {names : List Name} (h : ∀ name ∈ names, name.Valid) :
    '\x00' ∉ (⟨true, 0, names⟩ : Path.Lexical).toPath := by
  show '\x00' ∉ '/' :: Path.joined names
  intro hmem
  rcases List.mem_cons.1 hmem with hslash | hmem
  · exact absurd hslash (by decide)
  obtain hslash | ⟨name, hname, hmem⟩ := Path.mem_joined hmem
  · exact absurd hslash (by decide)
  · exact (h name hname).2.2.2.2 hmem

theorem currentPath_eq (h : fs.HasCurrent) :
    fs.currentPath = some (⟨true, 0, fs.current⟩ : Path.Lexical).toPath := by
  unfold currentPath
  rw [h.kept]
  rfl

/-- **Resolving keeps where a path leads.** In a tree without links, what the walk of a path comes to,
from wherever the current directory is, the walk of the resolved path comes to from the root. The system
finds it there as well, if it takes a path of that length. -/
theorem reached_resolvePath (hroot : fs.root.WellFormed) (hfree : fs.root.LinkFree)
    (hcurrent : fs.HasCurrent) {p : Path} (hne : p ≠ []) {found : Location × Node}
    (h : fs.reached p = .ok found) :
    ∃ resolved, resolvePath fs.currentPath p = .ok resolved ∧ Path.isAbsolute resolved = true ∧
      fs.reached resolved = .ok found ∧
      (byteLength resolved ≤ longestPath → fs.find resolved = .ok found) := by
  obtain ⟨location, node⟩ := found
  obtain ⟨entries, hdir⟩ := hcurrent.root_eq
  obtain ⟨inside, hinside⟩ := hcurrent.isDirectory
  -- where the walk ends, and what there is
  have hstart : NamesFit (startOf fs.current p) := by
    unfold startOf
    split
    · exact fun name hname => absurd hname List.not_mem_nil
    · exact hcurrent.fits
  obtain ⟨again, hagain⟩ := walk_eq_walkPieces fs.root linkLimit
  have hwalk := h
  unfold reached at hwalk
  rw [hagain] at hwalk
  obtain ⟨hcollapse, hfits⟩ := foldl_push_of_walkPieces hfree hstart hwalk
  have hdescend := descend?_of_reached h
  have hvalid := hroot.valid_of_descend? hdescend
  have hnames : ∀ name ∈ location, Path.IsName name := fun name hname => (hvalid name hname).isName
  -- the path of that location leads there again
  have hresolved := Path.isResolved_toPath hnames
  have hreached : fs.reached (⟨true, 0, location⟩ : Path.Lexical).toPath = .ok (location, node) := by
    unfold reached startOf
    rw [if_pos hresolved.isAbsolute, walk_segments_rooted hnames]
    exact walk_of_descend? hfree hroot hdir hfits hdescend linkLimit
  refine ⟨(⟨true, 0, location⟩ : Path.Lexical).toPath, ?_, hresolved.isAbsolute, hreached,
    fun hshort => ?_⟩
  · have hcurrentNames : ∀ name ∈ fs.current, Path.IsName name := fun name hname =>
      (hroot.valid_of_descend? hinside name hname).isName
    unfold resolvePath
    rw [currentPath_eq hcurrent, Path.resolve_rooted hcurrentNames hne, hcollapse]
  · have hne' : (⟨true, 0, location⟩ : Path.Lexical).toPath ≠ [] := List.cons_ne_nil _ _
    rw [find_eq hcurrent, if_neg hne', if_neg (nul_not_mem_rooted hvalid),
      if_neg (Nat.not_lt.2 hshort), hreached]

/-- A page beside two directories, one in the other, which is the current one. -/
def pageSite : FileSystem where
  root := .directory [("site".toList, .directory [
    ("views".toList, .directory [("old".toList, .directory [])]),
    ("a.hbs".toList, .file (.text "x"))])]
  current := ["site".toList, "views".toList, "old".toList]

theorem wellFormed_pageSite : pageSite.root.WellFormed := by
  have hfile : (Node.file (.text "x")).WellFormed := .file _
  have hold : (Node.directory []).WellFormed := .directory [] (by simp) (by simp) (by simp)
  have hviews : (Node.directory [("old".toList, .directory [])]).WellFormed :=
    .directory _ (by simp [Name.Valid]) (by simp) (by simpa using hold)
  have hsite : (Node.directory [("views".toList, .directory [("old".toList, .directory [])]),
      ("a.hbs".toList, .file (.text "x"))]).WellFormed :=
    .directory _ (by simp [Name.Valid]) (by simp) (by simpa [hfile] using hviews)
  exact .directory _ (by simp [Name.Valid]) (by simp) (by simpa using hsite)

theorem linkFree_pageSite : pageSite.root.LinkFree := by
  have hfile : (Node.file (.text "x")).LinkFree := .file _
  have hold : (Node.directory []).LinkFree := .directory [] (by simp)
  have hviews : (Node.directory [("old".toList, .directory [])]).LinkFree :=
    .directory _ (by simpa using hold)
  have hsite : (Node.directory [("views".toList, .directory [("old".toList, .directory [])]),
      ("a.hbs".toList, .file (.text "x"))]).LinkFree :=
    .directory _ (by simpa [hfile] using hviews)
  exact .directory _ (by simpa using hsite)

/-- Beyond the root and down again, in and out of a directory, with slashes in plenty. -/
theorem reached_resolvePath_of_pageSite :
    pageSite.reached "../..//../../../site/./views/old//../../a.hbs".toList =
      .ok (["site".toList, "a.hbs".toList], .file (.text "x")) ∧
    resolvePath pageSite.currentPath "../..//../../../site/./views/old//../../a.hbs".toList =
      .ok "/site/a.hbs".toList ∧
    pageSite.find "/site/a.hbs".toList =
      .ok (["site".toList, "a.hbs".toList], .file (.text "x")) := by
  have hcurrent : pageSite.HasCurrent := ⟨rfl, ⟨_, rfl⟩, by decide⟩
  have hreached : pageSite.reached "../..//../../../site/./views/old//../../a.hbs".toList =
      .ok (["site".toList, "a.hbs".toList], .file (.text "x")) := rfl
  have hresolve : resolvePath pageSite.currentPath
      "../..//../../../site/./views/old//../../a.hbs".toList = .ok "/site/a.hbs".toList := rfl
  obtain ⟨resolved, hresolved, -, -, hfind⟩ :=
    reached_resolvePath wellFormed_pageSite linkFree_pageSite hcurrent (by decide) hreached
  rw [hresolve] at hresolved
  cases hresolved
  exact ⟨hreached, hresolve, hfind (by decide)⟩

end FileSystem

end Stencil
