import Mathlib.Data.Set.List
import Stencil.Proofs.Files.Depth
import Stencil.Proofs.Partials.Origin

/-!
# A scan lists exactly the files below a directory

A scan opens directories and follows links by their paths, so what it meets can be said in terms of
where paths lead: which entries are in the directory at the end of a route (`HasEntry`), which entries
are files or lead to one (`Lists`), and at which entries a scan cannot go on (`Blocks`). A scan fails
exactly if there is an entry of the last kind, and the fault is that of such an entry
(`blocks_of_scan_eq_error`). Otherwise it lists every file, each once, in the order of the paths
(`exists_routes_of_scan`, `pairwise_lt_scan`).

The proof is by induction on the depth that is left, which is more than there is room for. The directories
being walked are those that the routes to the present one lead to.
-/

namespace Stencil

namespace FileSystem

open Files

/-- The route leads to a directory that has this entry. -/
def HasEntry (fs : FileSystem) (base : Path) (route : List Name) (name : Name) (node : Node) : Prop :=
  (∀ other ∈ route, other.Valid) ∧ ∃ location entries,
    fs.find (Path.along base route) = .ok (location, .directory entries) ∧
      entries.lookup name = some node

/-- An entry at which a scan cannot go on: a directory or a link whose path leads nowhere, or a link to a
directory on the route to it. -/
inductive Blocks (fs : FileSystem) (base : Path) (route : List Name) (name : Name) : Fault → Prop
  | refused {node : Node} {fault : Fault} (hentry : fs.HasEntry base route name node)
      (hnode : ∀ content, node ≠ .file content)
      (hfind : fs.find (Path.along base (route ++ [name])) = .error fault) :
      Blocks fs base route name fault
  | loop {target : Path} {before : List Name} {location : Location}
      {entries entries' : List (Name × Node)} (hentry : fs.HasEntry base route name (.link target))
      (hfind : fs.find (Path.along base (route ++ [name])) = .ok (location, .directory entries))
      (hbefore : before <+: route)
      (hagain : fs.find (Path.along base before) = .ok (location, .directory entries')) :
      Blocks fs base route name .other

/-- The route leads to a file, or its last name is that of a link to a file. -/
def Lists (fs : FileSystem) (base : Path) (route : List Name) : Prop :=
  ∃ before name node, route = before ++ [name] ∧ fs.HasEntry base before name node ∧
    ((∃ content, node = .file content) ∨ ∃ target location content, node = .link target ∧
      fs.find (Path.along base route) = .ok (location, .file content))

/-- What blocks a scan is there. -/
theorem Blocks.exists_entry {fs : FileSystem} {base : Path} {route : List Name} {name : Name}
    {fault : Fault} (h : fs.Blocks base route name fault) :
    ∃ node, fs.HasEntry base route name node := by
  cases h with
  | refused hentry _ _ => exact ⟨_, hentry⟩
  | loop hentry _ _ _ => exact ⟨_, hentry⟩

/-- So is what it lists. -/
theorem Lists.exists_entry {fs : FileSystem} {base : Path} {route : List Name} {name : Name}
    (h : fs.Lists base (route ++ [name])) : ∃ node, fs.HasEntry base route name node := by
  obtain ⟨before, last, node, hsplit, hentry, -⟩ := h
  obtain ⟨rfl, hlast⟩ := List.append_inj' hsplit rfl
  cases hlast
  exact ⟨node, hentry⟩

/-- On the way to a directory there are directories. -/
theorem exists_directory_of_append {fs : FileSystem} {base : Path} (hbase : Path.IsResolved base)
    {route more : List Name} (hvalid : ∀ name ∈ route ++ more, name.Valid) {location : Location}
    {entries : List (Name × Node)}
    (h : fs.find (Path.along base (route ++ more)) = .ok (location, .directory entries)) :
    ∃ location entries, fs.find (Path.along base route) = .ok (location, .directory entries) := by
  -- name by name from the end, the parent of a directory being one
  induction more using List.reverseRecOn generalizing location entries with
  | nil =>
    rw [List.append_nil] at h
    exact ⟨location, entries, h⟩
  | append_singleton more name ih =>
    rw [← List.append_assoc] at h hvalid
    obtain ⟨hbefore, hname⟩ := List.forall_mem_append.1 hvalid
    obtain ⟨above, inside, node, habove, -⟩ :=
      exists_parent_of_find hbase hbefore (hname name (by simp)) h
    exact ih hbefore habove

end FileSystem

namespace Path

/-- A route is walked part by part. -/
theorem along_append (base : Path) (route more : List (List Char)) :
    along base (route ++ more) = along (along base route) more := List.foldl_append

theorem along_append_name (base : Path) (route : List (List Char)) (name : List Char) :
    along base (route ++ [name]) = join (along base route) name := along_append base route [name]

end Path

namespace Files

/-- Names are distinct in a directory, so an entry is found under its own. -/
theorem lookup_of_mem {entries : List (Name × Node)}
    (hdistinct : entries.Pairwise fun a b => a.1 ≠ b.1) {name : Name} {node : Node}
    (h : (name, node) ∈ entries) : entries.lookup name = some node := by
  obtain ⟨before, after, rfl⟩ := List.mem_iff_append.1 h
  rw [List.lookup_eq_some_iff]
  refine ⟨before, after, rfl, fun entry hentry => ?_⟩
  have hne := (List.pairwise_append.1 hdistinct).2.2 entry hentry (name, node) List.mem_cons_self
  simpa using hne.symm

theorem mem_of_lookup {entries : List (Name × Node)} {name : Name} {node : Node}
    (h : entries.lookup name = some node) : (name, node) ∈ entries := by
  obtain ⟨before, after, rfl, -⟩ := List.lookup_eq_some_iff.1 h
  exact List.mem_append_right before List.mem_cons_self

/-- A scan is in the directory that a route leads to, and walks those that are on the route to it. -/
structure Walking (fs : FileSystem) (base : Path) (above : List Location) (route : List Name)
    (directory : Location) (entries : List (Name × Node)) : Prop where
  valid : ∀ name ∈ route, name.Valid
  found : fs.find (Path.along base route) = .ok (directory, .directory entries)
  mem_above : ∀ location, location ∈ above ↔ ∃ before, before <+: route ∧
    ∃ inside, fs.find (Path.along base before) = .ok (location, .directory inside)

/-- The scan goes on in a directory that an entry leads to. -/
theorem Walking.enter {fs : FileSystem} {base : Path} {above : List Location} {route : List Name}
    {directory : Location} {entries : List (Name × Node)}
    (h : Walking fs base above route directory entries) {name : Name} (hname : name.Valid)
    {location : Location} {inside : List (Name × Node)}
    (hfind : fs.find (Path.along base (route ++ [name])) = .ok (location, .directory inside)) :
    Walking fs base (location :: above) (route ++ [name]) location inside where
  valid := List.forall_mem_append.2 ⟨h.valid, by simpa using hname⟩
  found := hfind
  mem_above other := by
    rw [List.mem_cons, h.mem_above]
    constructor
    · -- the directory that is entered, or one that was above already
      rintro (rfl | ⟨before, hbefore, hother⟩)
      · exact ⟨_, List.prefix_refl _, inside, hfind⟩
      · exact ⟨before, hbefore.trans (List.prefix_append route [name]), hother⟩
    · rintro ⟨before, hbefore, more, hother⟩
      -- a front of the longer route is the route itself or a front of the shorter one
      rcases List.prefix_concat_iff.1 hbefore with rfl | hbefore
      · rw [hfind] at hother
        cases hother
        exact .inl rfl
      · exact .inr ⟨before, hbefore, more, hother⟩

section Walking

variable {fs : FileSystem} (hroot : fs.root.WellFormed) {base : Path} (hbase : Path.IsResolved base)
  {above : List Location} {route : List Name} {directory : Location} {entries : List (Name × Node)}
  (h : Walking fs base above route directory entries)

include hroot hbase h

/-- The names in the directory are valid, and each is that of one entry. -/
theorem lookup_of_mem_found {name : Name} {node : Node} (hmem : (name, node) ∈ entries) :
    name.Valid ∧ entries.lookup name = some node := by
  obtain ⟨hentries, hdistinct⟩ :=
    (hroot.of_descend? (FileSystem.inTree_of_find hbase h.valid h.found).1).entries
  exact ⟨(hentries (name, node) hmem).1, lookup_of_mem hdistinct hmem⟩

omit hroot hbase in
/-- In the directory that the walk is in, the entries are those of the tree. -/
theorem hasEntry_iff {name : Name} {node : Node} :
    fs.HasEntry base route name node ↔ entries.lookup name = some node := by
  constructor
  · rintro ⟨-, location, entries', hfind, hentry⟩
    rw [h.found] at hfind
    cases hfind
    exact hentry
  · exact fun hentry => ⟨h.valid, directory, entries, h.found, hentry⟩

/-- A directory is opened in its place, or its path is refused. -/
theorem reach_directory {name : Name} {inside : List (Name × Node)}
    (hmem : (name, .directory inside) ∈ entries) :
    (fs.find (Path.along base (route ++ [name])) =
        .ok (directory ++ [name], .directory inside) ∧
      reach fs above (Path.along base (route ++ [name])) directory name (.directory inside) =
        .ok (.directory (directory ++ [name]) inside)) ∨
    (fs.find (Path.along base (route ++ [name])) = .error .invalidName ∧
      reach fs above (Path.along base (route ++ [name])) directory name (.directory inside) =
        .error ⟨Path.along base (route ++ [name]), .invalidName⟩) := by
  obtain ⟨hname, hentry⟩ := lookup_of_mem_found hroot hbase h hmem
  unfold reach
  -- the entry is there, so only the length of its path can be in the way
  rcases FileSystem.find_child hbase h.valid hname h.found hentry (by simp) with hfind | ⟨hfind, -⟩
  · exact .inl ⟨hfind, by rw [hfind]⟩
  · exact .inr ⟨hfind, by rw [hfind]⟩

/-- An entry is a file or leads to one, or it is a directory to go on in, or it stops the scan. -/
theorem reach_cases {name : Name} {node : Node} (hmem : (name, node) ∈ entries) :
    (reach fs above (Path.along base (route ++ [name])) directory name node = .ok .file ∧
      fs.Lists base (route ++ [name])) ∨
    (∃ location inside, reach fs above (Path.along base (route ++ [name])) directory name node =
        .ok (.directory location inside) ∧
      fs.find (Path.along base (route ++ [name])) = .ok (location, .directory inside) ∧
      room fs.root (location :: above) inside < room fs.root above entries) ∨
    ∃ fault, reach fs above (Path.along base (route ++ [name])) directory name node =
        .error ⟨Path.along base (route ++ [name]), fault⟩ ∧
      fs.Blocks base route name fault := by
  obtain ⟨hname, hlookup⟩ := lookup_of_mem_found hroot hbase h hmem
  have hentry : fs.HasEntry base route name node := (hasEntry_iff h).2 hlookup
  -- one case for each kind of entry; only a link needs the whole way to be followed again
  cases node with
  | file content => exact .inl ⟨rfl, route, name, _, rfl, hentry, .inl ⟨content, rfl⟩⟩
  | directory inside =>
    rcases reach_directory hroot hbase h hmem with ⟨hfind, hreach⟩ | ⟨hfind, hreach⟩
    · exact .inr (.inl ⟨_, inside, hreach, hfind, room_entry_lt hmem _ above⟩)
    · exact .inr (.inr ⟨_, hreach, .refused hentry (by simp) hfind⟩)
  | link target =>
    have hlonger : ∀ other ∈ route ++ [name], other.Valid :=
      List.forall_mem_append.2 ⟨h.valid, by simpa using hname⟩
    unfold reach
    cases hfind : fs.find (Path.along base (route ++ [name])) with
    | error fault => exact .inr (.inr ⟨fault, rfl, .refused hentry (by simp) hfind⟩)
    | ok found =>
      obtain ⟨location, there⟩ := found
      obtain ⟨hdescend, hlink⟩ := FileSystem.inTree_of_find hbase hlonger hfind
      cases there with
      | link target => exact absurd rfl (hlink target)
      | file content =>
        exact .inl ⟨rfl, route, name, _, rfl, hentry, .inr ⟨target, location, content, rfl, hfind⟩⟩
      | directory inside =>
        simp only
        -- a directory above means going in circles; a new one leaves less to enter
        split
        · rename_i hagain
          obtain ⟨before, hbefore, more, hsame⟩ := (h.mem_above location).1 hagain
          exact .inr (.inr ⟨_, rfl, .loop hentry hfind hbefore hsame⟩)
        · rename_i hnew
          exact .inr (.inl ⟨location, inside, rfl, rfl, room_link_lt hdescend hnew entries⟩)

/-- An entry that stops a scan is one at which no directory is entered and no file is found. -/
theorem reach_of_blocks {name : Name} {node : Node} (hmem : (name, node) ∈ entries) {fault : Fault}
    (hblocks : fs.Blocks base route name fault) :
    ∃ failure, reach fs above (Path.along base (route ++ [name])) directory name node =
      .error failure := by
  obtain ⟨hname, hlookup⟩ := lookup_of_mem_found hroot hbase h hmem
  cases hblocks with
  -- a file is never asked for, so a refused entry is a directory or a link
  | refused hentry hnode hfind =>
    rw [hasEntry_iff h, hlookup] at hentry
    cases hentry
    unfold reach
    rw [hfind]
    cases node with
    | file content => exact absurd rfl (hnode content)
    | directory inside => exact ⟨_, rfl⟩
    | link target => exact ⟨_, rfl⟩
  | loop hentry hfind hbefore hagain =>
    rw [hasEntry_iff h, hlookup] at hentry
    cases hentry
    unfold reach
    rw [hfind]
    exact ⟨_, if_pos ((h.mem_above _).2 ⟨_, hbefore, _, hagain⟩)⟩

/-- A name that leads to a directory is followed there, or nowhere. -/
theorem reach_of_find_directory {name : Name} {node : Node} (hmem : (name, node) ∈ entries)
    {location : Location} {inside : List (Name × Node)}
    (hfind : fs.find (Path.along base (route ++ [name])) = .ok (location, .directory inside)) :
    reach fs above (Path.along base (route ++ [name])) directory name node =
        .ok (.directory location inside) ∨
      ∃ failure, reach fs above (Path.along base (route ++ [name])) directory name node =
        .error failure := by
  obtain ⟨hname, hlookup⟩ := lookup_of_mem_found hroot hbase h hmem
  cases node with
  | file content =>
    rcases FileSystem.find_child hbase h.valid hname h.found hlookup (by simp) with hfile | ⟨hfile, -⟩
    · rw [hfile] at hfind
      cases hfind
    · rw [hfile] at hfind
      cases hfind
  | directory more =>
    rcases reach_directory hroot hbase h hmem with ⟨hsame, hreach⟩ | ⟨-, hreach⟩
    · rw [hsame] at hfind
      cases hfind
      exact .inl hreach
    · exact .inr ⟨_, hreach⟩
  -- a link to a directory is entered unless the walk is in that directory already
  | link target =>
    unfold reach
    rw [hfind]
    simp only
    split
    · exact .inr ⟨_, rfl⟩
    · exact .inl rfl

/-- A name that is listed is that of a file. -/
theorem reach_of_lists {name : Name} {node : Node} (hmem : (name, node) ∈ entries)
    (hlists : fs.Lists base (route ++ [name])) :
    reach fs above (Path.along base (route ++ [name])) directory name node = .ok .file := by
  obtain ⟨-, hlookup⟩ := lookup_of_mem_found hroot hbase h hmem
  obtain ⟨before, last, there, hsplit, hentry, hfile⟩ := hlists
  obtain ⟨rfl, hlast⟩ := List.append_inj' hsplit rfl
  cases hlast
  rw [hasEntry_iff h, hlookup] at hentry
  cases hentry
  rcases hfile with ⟨content, rfl⟩ | ⟨target, location, content, rfl, hfind⟩
  · rfl
  · unfold reach
    rw [hfind]

/-- What an entry leads to that the scan enters. -/
theorem enter_of_reach {name : Name} {node : Node} (hmem : (name, node) ∈ entries)
    {location : Location} {inside : List (Name × Node)}
    (hreach : reach fs above (Path.along base (route ++ [name])) directory name node =
      .ok (.directory location inside)) :
    Walking fs base (location :: above) (route ++ [name]) location inside ∧
      room fs.root (location :: above) inside < room fs.root above entries := by
  -- of the three ends of `reach` only the middle one is a directory
  obtain ⟨hfile, -⟩ | ⟨location', inside', hsame, hfind, hroom⟩ | ⟨fault, hfault, -⟩ :=
    reach_cases hroot hbase h hmem
  · rw [hfile] at hreach
    cases hreach
  · rw [hsame] at hreach
    cases hreach
    exact ⟨h.enter (lookup_of_mem_found hroot hbase h hmem).1 hfind, hroom⟩
  · rw [hfault] at hreach
    cases hreach

omit hroot in
/-- The way to an entry further down starts with an entry that leads to a directory. -/
theorem exists_first_of_hasEntry {first : Name} {rest : List Name} {name : Name} {node : Node}
    (hentry : fs.HasEntry base (route ++ first :: rest) name node) :
    ∃ there, (first, there) ∈ entries ∧ ∃ location inside,
      fs.find (Path.along base (route ++ [first])) = .ok (location, .directory inside) := by
  obtain ⟨hvalid, location, inside, hfind, -⟩ := hentry
  rw [List.append_cons] at hvalid hfind
  obtain ⟨location, inside, hfirst⟩ := FileSystem.exists_directory_of_append hbase hvalid hfind
  have hname : first.Valid := hvalid first (by simp)
  obtain ⟨location', inside', there, hhere, hlookup⟩ :=
    FileSystem.exists_parent_of_find hbase h.valid hname hfirst
  rw [h.found] at hhere
  cases hhere
  exact ⟨there, mem_of_lookup hlookup, location, inside, hfirst⟩

/-! ## The whole walk -/

variable {ext : Extension} {depth : Nat}

omit hroot hbase h in
/-- What a scan makes of an entry, told by where the entry is reached. -/
theorem filesAt_along (name : Name) (node : Node) :
    filesAt fs ext depth above (Path.along base route) directory (name, node) =
      match reach fs above (Path.along base (route ++ [name])) directory name node with
      | .error fault => .error fault
      | .ok .file =>
        .ok (if ext.matches? name then [Path.along base (route ++ [name])] else [])
      | .ok (.directory location inside) =>
        filesBelow fs ext depth (location :: above) (Path.along base (route ++ [name])) location
          inside := by
  rw [Path.along_append_name]
  rfl

end Walking

section Below

variable {fs : FileSystem} (hroot : fs.root.WellFormed) {base : Path} (hbase : Path.IsResolved base)
  {ext : Extension} {depth : Nat} {above : List Location} {route : List Name} {directory : Location}
  {entries : List (Name × Node)} (h : Walking fs base above route directory entries)
  (hroom : room fs.root above entries < depth)

include hroot hbase h hroom

/-- A scan that fails has met an entry at which it cannot go on. -/
theorem blocks_of_filesBelow_eq_error {failure : ScanFault}
    (hfails : filesBelow fs ext depth above (Path.along base route) directory entries =
      .error failure) :
    ∃ more name, fs.Blocks base (route ++ more) name failure.fault ∧
      failure.path = Path.along base (route ++ more ++ [name]) := by
  -- by the depth that is left, which `hroom` keeps above what is still to be entered
  induction depth generalizing above route directory entries with
  | zero => exact absurd hroom (Nat.not_lt_zero _)
  | succ depth ih =>
    rw [filesBelow_succ] at hfails
    cases hparts : entries.mapM (filesAt fs ext depth above (Path.along base route) directory) with
    | ok parts =>
      rw [hparts] at hfails
      cases hfails
    | error failure' =>
      rw [hparts] at hfails
      cases hfails
      -- some entry failed: it cannot be reached itself, or something below it fails
      obtain ⟨⟨name, node⟩, hmem, hfault⟩ := exists_mem_of_mapM_eq_error hparts
      rw [filesAt_along] at hfault
      obtain ⟨hreach, -⟩ | ⟨location, inside, hreach, -, -⟩ | ⟨fault, hreach, hblocks⟩ :=
        reach_cases hroot hbase h hmem
      · rw [hreach] at hfault
        cases hfault
      · rw [hreach] at hfault
        obtain ⟨hnext, hless⟩ := enter_of_reach hroot hbase h hmem hreach
        obtain ⟨more, last, hblocks, hpath⟩ := ih hnext (by omega) hfault
        rw [← List.append_cons] at hblocks hpath
        exact ⟨name :: more, last, hblocks, hpath⟩
      · rw [hreach] at hfault
        cases hfault
        exact ⟨[], name, by rwa [List.append_nil], by rw [List.append_nil]⟩

/-- A scan that does not fail has met no entry at which it cannot go on. -/
theorem not_blocks_of_filesBelow_eq_ok {paths : List Path}
    (hfound : filesBelow fs ext depth above (Path.along base route) directory entries = .ok paths)
    (more : List Name) (name : Name) (fault : Fault) : ¬ fs.Blocks base (route ++ more) name fault := by
  intro hblocks
  induction depth generalizing above route directory entries paths more with
  | zero => exact absurd hroom (Nat.not_lt_zero _)
  | succ depth ih =>
    obtain ⟨parts, hparts, -⟩ := exists_parts_filesBelow hfound
    obtain ⟨node, hentry⟩ := hblocks.exists_entry
    -- what blocks is an entry of this directory, or it lies below the first name of the route
    cases more with
    | nil =>
      rw [List.append_nil] at hblocks hentry
      have hmem := mem_of_lookup ((hasEntry_iff h).1 hentry)
      obtain ⟨part, -, hpart⟩ := exists_mem_of_forall₂ hparts.flip hmem
      obtain ⟨failure, hreach⟩ := reach_of_blocks hroot hbase h hmem hblocks
      rw [filesAt_along, hreach] at hpart
      cases hpart
    | cons first rest =>
      obtain ⟨there, hmem, location, inside, hfirst⟩ :=
        exists_first_of_hasEntry hbase h hentry
      obtain ⟨part, -, hpart⟩ := exists_mem_of_forall₂ hparts.flip hmem
      rw [filesAt_along] at hpart
      obtain hreach | ⟨failure, hreach⟩ := reach_of_find_directory hroot hbase h hmem hfirst
      · rw [hreach] at hpart
        obtain ⟨hnext, hless⟩ := enter_of_reach hroot hbase h hmem hreach
        rw [List.append_cons] at hblocks
        exact ih hnext (by omega) hpart rest hblocks
      · rw [hreach] at hpart
        cases hpart

/-- What a scan finds is the path of a file below its directory. -/
theorem exists_route_of_mem_filesBelow {paths : List Path}
    (hfound : filesBelow fs ext depth above (Path.along base route) directory entries = .ok paths)
    {p : Path} (hp : p ∈ paths) :
    ∃ more, IsRoute ext more ∧ fs.Lists base (route ++ more) ∧
      p = Path.along base (route ++ more) := by
  induction depth generalizing above route directory entries paths p with
  | zero => exact absurd hroom (Nat.not_lt_zero _)
  | succ depth ih =>
    obtain ⟨parts, hparts, rfl⟩ := exists_parts_filesBelow hfound
    -- the path comes from one entry: a file gives itself, a directory what is below it
    obtain ⟨part, hpart, hp⟩ := List.mem_flatten.1 hp
    obtain ⟨⟨name, node⟩, hmem, hpart⟩ := exists_mem_of_forall₂ hparts hpart
    obtain ⟨hname, -⟩ := lookup_of_mem_found hroot hbase h hmem
    rw [filesAt_along] at hpart
    obtain ⟨hreach, hlists⟩ | ⟨location, inside, hreach, -, -⟩ | ⟨fault, hreach, -⟩ :=
      reach_cases hroot hbase h hmem
    · rw [hreach] at hpart
      cases hpart
      split at hp
      · rename_i hmatches
        rw [List.mem_singleton.1 hp]
        have hroute : IsRoute ext [name] :=
          ⟨by simpa using hname, [], name, rfl, Extension.matches?_iff.1 hmatches⟩
        exact ⟨[name], hroute, hlists, rfl⟩
      · cases hp
    · rw [hreach] at hpart
      obtain ⟨hnext, hless⟩ := enter_of_reach hroot hbase h hmem hreach
      obtain ⟨more, hroute, hlists, rfl⟩ := ih hnext (by omega) hpart hp
      rw [← List.append_cons] at hlists ⊢
      exact ⟨name :: more, hroute.cons hname, hlists, rfl⟩
    · rw [hreach] at hpart
      cases hpart

/-- A scan that does not fail finds every file below its directory. -/
theorem mem_filesBelow_of_lists {paths : List Path}
    (hfound : filesBelow fs ext depth above (Path.along base route) directory entries = .ok paths)
    {more : List Name} (hroute : IsRoute ext more) (hlists : fs.Lists base (route ++ more)) :
    Path.along base (route ++ more) ∈ paths := by
  induction depth generalizing above route directory entries paths more with
  | zero => exact absurd hroom (Nat.not_lt_zero _)
  | succ depth ih =>
    obtain ⟨parts, hparts, rfl⟩ := exists_parts_filesBelow hfound
    rw [List.mem_flatten]
    cases more with
    | nil => exact absurd rfl hroute.ne_nil
    | cons first rest =>
      rcases List.eq_nil_or_concat rest with rfl | ⟨inner, final, rfl⟩
      · obtain ⟨node, hentry⟩ := hlists.exists_entry
        have hmem := mem_of_lookup ((hasEntry_iff h).1 hentry)
        obtain ⟨part, hpart, hfound⟩ := exists_mem_of_forall₂ hparts.flip hmem
        rw [filesAt_along, reach_of_lists hroot hbase h hmem hlists] at hfound
        simp only [hroute.matches?, if_true] at hfound
        cases hfound
        exact ⟨_, hpart, List.mem_singleton_self _⟩
      · rw [List.concat_eq_append] at hlists hroute ⊢
        -- the way to the file starts with an entry of this directory
        have hway : route ++ first :: (inner ++ [final]) = route ++ first :: inner ++ [final] := by
          simp
        obtain ⟨node, hentry⟩ := (hway ▸ hlists).exists_entry
        obtain ⟨there, hmem, location, inside, hfirst⟩ := exists_first_of_hasEntry hbase h hentry
        obtain ⟨part, hpart, hfound⟩ := exists_mem_of_forall₂ hparts.flip hmem
        rw [filesAt_along] at hfound
        obtain hreach | ⟨failure, hreach⟩ := reach_of_find_directory hroot hbase h hmem hfirst
        · rw [hreach] at hfound
          obtain ⟨hnext, hless⟩ := enter_of_reach hroot hbase h hmem hreach
          rw [List.append_cons] at hlists ⊢
          exact ⟨part, hpart, ih hnext (by omega) hfound (hroute.of_cons (by simp)) hlists⟩
        · rw [hreach] at hfound
          cases hfound

/-- What a scan that does not fail has found. -/
theorem mem_filesBelow_iff {paths : List Path}
    (hfound : filesBelow fs ext depth above (Path.along base route) directory entries = .ok paths)
    (p : Path) :
    p ∈ paths ↔ ∃ more, IsRoute ext more ∧ fs.Lists base (route ++ more) ∧
      p = Path.along base (route ++ more) := by
  refine ⟨exists_route_of_mem_filesBelow hroot hbase h hroom hfound, ?_⟩
  rintro ⟨more, hroute, hlists, rfl⟩
  exact mem_filesBelow_of_lists hroot hbase h hroom hfound hroute hlists

end Below

/-- A scan starts in its directory. -/
theorem walking_nil {fs : FileSystem} {base : Path} {location : Location}
    {entries : List (Name × Node)} (h : fs.find base = .ok (location, .directory entries)) :
    Walking fs base [location] [] location entries where
  valid := by simp
  found := h
  mem_above other := by
    rw [List.mem_singleton]
    constructor
    · rintro rfl
      exact ⟨[], List.prefix_refl _, entries, h⟩
    · rintro ⟨before, hbefore, inside, hother⟩
      rw [List.prefix_nil.1 hbefore] at hother
      have hsame := hother.symm.trans h
      cases hsame
      rfl

end Files

namespace FileSystem

open Files

variable {fs : FileSystem} {base : Path} {ext : Extension}

/-- A scan that finds its directory lists it with all the depth that the tree can need, and sorts
what it found. -/
theorem scan_of_directory {location : Location} {entries : List (Name × Node)}
    (h : fs.find base = .ok (location, .directory entries)) :
    fs.scan base ext =
      some ((filesBelow fs ext fs.walkDepth [location] base location entries).map Path.sorted) := by
  unfold scan
  rw [h]

theorem descend?_of_find_base (hbase : Path.IsResolved base) {location : Location} {node : Node}
    (h : fs.find base = .ok (location, node)) : fs.root.descend? location = some node := by
  have hnil : ∀ name ∈ ([] : List Name), name.Valid := by simp
  exact (inTree_of_find hbase hnil h).1

/-- A scan that answers at all has found a directory. -/
theorem exists_directory_of_scan {result : Except ScanFault (List Path)}
    (h : fs.scan base ext = some result) :
    ∃ location entries, fs.find base = .ok (location, .directory entries) := by
  unfold scan at h
  split at h
  · rename_i location entries hfind
    exact ⟨location, entries, hfind⟩
  · cases h

variable (hroot : fs.root.WellFormed) (hbase : Path.IsResolved base)

include hroot hbase

/-- A scan that fails has met an entry at which it cannot go on, and names it. -/
theorem blocks_of_scan_eq_error {failure : ScanFault}
    (h : fs.scan base ext = some (.error failure)) :
    ∃ route name, fs.Blocks base route name failure.fault ∧
      failure.path = Path.along base (route ++ [name]) := by
  obtain ⟨location, entries, hfind⟩ := exists_directory_of_scan h
  rw [scan_of_directory hfind] at h
  -- the depth that a scan starts with is more than there is to enter
  have hroom := room_lt_walkDepth (descend?_of_find_base hbase hfind) [location]
  cases hbelow : filesBelow fs ext fs.walkDepth [location] base location entries with
  | ok paths =>
    rw [hbelow] at h
    cases h
  | error failure' =>
    rw [hbelow] at h
    cases h
    exact blocks_of_filesBelow_eq_error hroot hbase (walking_nil hfind) hroom hbelow

/-- A scan that succeeds has met no such entry, and has found just the files. -/
theorem mem_scan_iff {paths : List Path} (h : fs.scan base ext = some (.ok paths)) :
    (∀ route name fault, ¬ fs.Blocks base route name fault) ∧
      ∀ p, p ∈ paths ↔
        ∃ route, IsRoute ext route ∧ fs.Lists base route ∧ p = Path.along base route := by
  obtain ⟨location, entries, hfind⟩ := exists_directory_of_scan h
  rw [scan_of_directory hfind] at h
  have hroom := room_lt_walkDepth (descend?_of_find_base hbase hfind) [location]
  cases hbelow : filesBelow fs ext fs.walkDepth [location] base location entries with
  | error failure =>
    rw [hbelow] at h
    cases h
  | ok found =>
    rw [hbelow] at h
    cases h
    -- sorting changes the order only
    refine ⟨not_blocks_of_filesBelow_eq_ok hroot hbase (walking_nil hfind) hroom hbelow, fun p => ?_⟩
    rw [(Path.perm_sorted found).mem_iff]
    exact mem_filesBelow_iff hroot hbase (walking_nil hfind) hroom hbelow p

/-- What a scan finds ascends strictly, since no file is found twice. -/
theorem pairwise_lt_scan {paths : List Path} (h : fs.scan base ext = some (.ok paths)) :
    paths.Pairwise (· < ·) := by
  have hsorted : paths.Pairwise fun a b => ¬ b < a := by
    obtain ⟨location, entries, hfind⟩ := exists_directory_of_scan h
    rw [scan_of_directory hfind] at h
    cases hbelow : filesBelow fs ext fs.walkDepth [location] base location entries with
    | error failure =>
      rw [hbelow] at h
      cases h
    | ok found =>
      rw [hbelow] at h
      cases h
      exact Path.pairwise_sorted found
  -- ascending and without repetition is strictly ascending
  refine (hsorted.and (nodup_scan hroot hbase h)).imp fun hle => ?_
  by_contra hlt
  exact hle.2 (List.le_antisymm (List.not_lt.1 hle.1) (List.not_lt.1 hlt))

/-- **What a scan finds** are the paths of the files below the directory, each once and in order. -/
theorem exists_routes_of_scan {paths : List Path} (h : fs.scan base ext = some (.ok paths)) :
    ∃ routes : List (List Name), paths = routes.map (Path.along base) ∧
      ∀ route, route ∈ routes ↔ IsRoute ext route ∧ fs.Lists base route := by
  obtain ⟨-, hmem⟩ := mem_scan_iff hroot hbase h
  -- each path is that of a listed route, so the whole list is one of routes
  have hpaths : paths ∈ Set.range (List.map fun route : {route // IsRoute ext route ∧
      fs.Lists base route} => Path.along base route.1) := by
    rw [Set.range_list_map]
    intro p hp
    obtain ⟨route, hroute, hlists, rfl⟩ := (hmem p).1 hp
    exact ⟨⟨route, hroute, hlists⟩, rfl⟩
  obtain ⟨routes, rfl⟩ := hpaths
  refine ⟨routes.map Subtype.val, (List.map_map ..).symm, fun route => ?_⟩
  constructor
  · intro hroute
    obtain ⟨⟨route, hlisted⟩, -, rfl⟩ := List.mem_map.1 hroute
    exact hlisted
  · -- a listed route has its path in the list, and no other route has that path
    rintro ⟨hroute, hlists⟩
    obtain ⟨⟨other, hother⟩, hmem, hsame⟩ :=
      List.mem_map.1 ((hmem _).2 ⟨route, hroute, hlists, rfl⟩)
    have heq := Path.along_injective hbase hother.1.isName hroute.isName hsame
    exact List.mem_map.2 ⟨⟨other, hother⟩, hmem, heq⟩

end FileSystem

end Stencil
