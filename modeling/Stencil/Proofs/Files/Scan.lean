import Mathlib.Data.List.Forall2
import Mathlib.Data.List.Nodup
import Stencil.Proofs.Files.Walk
import Stencil.Proofs.Partials.Load

/-!
# What a scan finds

A scan walks down from a directory, and each file that it finds is at the end of a *route*: the names of
the entries from the directory to the file. No route is taken twice, since the names in a directory
are distinct (`exists_routes_filesBelow`, by induction on the depth of the walk). So the paths of a
scan are distinct, even where links lead to one file in several ways (`exists_routes_scan`).
-/

namespace Stencil

namespace Files

/-- A route through valid names, to a name that ends with the extension. -/
structure IsRoute (ext : Extension) (route : List Name) : Prop where
  valid : ∀ name ∈ route, name.Valid
  ending : ∃ before last, route = before ++ [last] ∧ ext.text <:+ last

/-- A route leads to a file, so it has a name at least. -/
theorem IsRoute.ne_nil {ext : Extension} {route : List Name} (h : IsRoute ext route) :
    route ≠ [] := by
  obtain ⟨before, last, rfl, -⟩ := h.ending
  simp

theorem IsRoute.isName {ext : Extension} {route : List Name} (h : IsRoute ext route) :
    ∀ name ∈ route, Path.IsName name := fun name hname => (h.valid name hname).isName

/-- A route ends with the extension, as its last name does. -/
theorem IsRoute.suffix {ext : Extension} {route : List Name} (h : IsRoute ext route) :
    ext.text <:+ Path.joined route := by
  obtain ⟨before, last, rfl, hlast⟩ := h.ending
  exact hlast.trans (Path.suffix_joined before last)

/-- A route that starts a directory further up. -/
theorem IsRoute.cons {ext : Extension} {route : List Name} (h : IsRoute ext route) {name : Name}
    (hname : name.Valid) : IsRoute ext (name :: route) := by
  obtain ⟨before, last, rfl, hlast⟩ := h.ending
  refine ⟨fun other hother => ?_, name :: before, last, rfl, hlast⟩
  rcases List.mem_cons.1 hother with rfl | hother
  · exact hname
  · exact h.valid other hother

/-- A route that starts a directory further down. -/
theorem IsRoute.of_cons {ext : Extension} {name : Name} {rest : List Name}
    (h : IsRoute ext (name :: rest)) (hne : rest ≠ []) : IsRoute ext rest := by
  refine ⟨fun other hother => h.valid other (List.mem_cons_of_mem name hother), ?_⟩
  obtain ⟨before, last, hsplit, hlast⟩ := h.ending
  cases before with
  | nil =>
    cases hsplit
    exact absurd rfl hne
  | cons first before =>
    cases hsplit
    exact ⟨before, last, rfl, hlast⟩

theorem IsRoute.matches? {ext : Extension} {name : Name} (h : IsRoute ext [name]) :
    ext.matches? name = true := by
  obtain ⟨before, last, hsplit, hlast⟩ := h.ending
  cases before with
  | nil =>
    cases hsplit
    exact Extension.matches?_iff.2 hlast
  | cons first before => simp at hsplit

/-- The paths are at the ends of distinct routes from `base`, which start with these names. -/
def AtRoutes (ext : Extension) (base : Path) (first : List Name) (paths : List Path) : Prop :=
  ∃ routes : List (List Name), paths = routes.map (Path.along base) ∧ routes.Nodup ∧
    ∀ route ∈ routes, IsRoute ext route ∧ ∃ name ∈ first, route.head? = some name

section AtRoutes

variable {ext : Extension} {base : Path}

theorem atRoutes_nil (first : List Name) : AtRoutes ext base first [] :=
  ⟨[], rfl, .nil, by simp⟩

/-- A file with the extension is found at its own name. -/
theorem atRoutes_singleton {name : Name} (hname : name.Valid) (hext : ext.text <:+ name) :
    AtRoutes ext base [name] [Path.join base name] := by
  refine ⟨[[name]], rfl, List.nodup_singleton _, fun route hroute => ?_⟩
  rw [List.mem_singleton.1 hroute]
  exact ⟨⟨by simpa using hname, [], name, rfl, hext⟩, name, List.mem_cons_self, rfl⟩

/-- Routes below an entry are routes from its directory. -/
theorem AtRoutes.cons {name : Name} (hname : name.Valid) {first : List Name} {paths : List Path}
    (h : AtRoutes ext (Path.join base name) first paths) : AtRoutes ext base [name] paths := by
  obtain ⟨routes, rfl, hnodup, hroutes⟩ := h
  refine ⟨routes.map (name :: ·), by rw [List.map_map]; rfl,
    hnodup.map List.cons_injective, fun route hroute => ?_⟩
  obtain ⟨rest, hrest, rfl⟩ := List.mem_map.1 hroute
  exact ⟨(hroutes rest hrest).1.cons hname, name, List.mem_cons_self, rfl⟩

/-- Routes that start with different names are different. -/
theorem AtRoutes.append {first first' : List Name} (hdisjoint : first.Disjoint first')
    {paths paths' : List Path} (h : AtRoutes ext base first paths)
    (h' : AtRoutes ext base first' paths') :
    AtRoutes ext base (first ++ first') (paths ++ paths') := by
  obtain ⟨routes, rfl, hnodup, hroutes⟩ := h
  obtain ⟨routes', rfl, hnodup', hroutes'⟩ := h'
  refine ⟨routes ++ routes', by simp, hnodup.append hnodup' ?_, fun route hroute => ?_⟩
  · -- a route in both lists would start with one of the first names and with one of the others
    intro route hroute hroute'
    obtain ⟨-, name, hname, hhead⟩ := hroutes route hroute
    obtain ⟨-, name', hname', hhead'⟩ := hroutes' route hroute'
    rw [hhead] at hhead'
    cases hhead'
    exact hdisjoint hname hname'
  · rcases List.mem_append.1 hroute with hroute | hroute
    · obtain ⟨hisRoute, name, hname, hhead⟩ := hroutes route hroute
      exact ⟨hisRoute, name, List.mem_append_left first' hname, hhead⟩
    · obtain ⟨hisRoute, name, hname, hhead⟩ := hroutes' route hroute
      exact ⟨hisRoute, name, List.mem_append_right first hname, hhead⟩

/-- What distinct entries add, each behind its own name. -/
theorem AtRoutes.flatten {entries : List (Name × Node)} {parts : List (List Path)}
    (hdistinct : entries.Pairwise fun a b => a.1 ≠ b.1)
    (h : List.Forall₂ (fun entry part => AtRoutes ext base [entry.1] part) entries parts) :
    AtRoutes ext base (entries.map Prod.fst) parts.flatten := by
  induction h with
  | nil => exact atRoutes_nil []
  | @cons entry part entries parts hpart _ ih =>
    obtain ⟨hfirst, hrest⟩ := List.pairwise_cons.1 hdistinct
    refine hpart.append ?_ (ih hrest)
    rw [List.singleton_disjoint, List.mem_map]
    rintro ⟨other, hother, hname⟩
    exact hfirst other hother hname.symm

end AtRoutes

/-! ## The walk -/

/-- What an entry adds to the files of a scan. -/
def filesAt (fs : FileSystem) (ext : Extension) (depth : Nat) (above : List Location)
    (shown : Path) (directory : Location) (entry : Name × Node) : Except ScanFault (List Path) :=
  match reach fs above (Path.join shown entry.1) directory entry.1 entry.2 with
  | .error fault => .error fault
  | .ok .file => .ok (if ext.matches? entry.1 then [Path.join shown entry.1] else [])
  | .ok (.directory location entries) =>
    filesBelow fs ext depth (location :: above) (Path.join shown entry.1) location entries

/-- An entry adds nothing, or its own path if it ends with the extension, or what is below it. -/
theorem filesAt_cases {fs : FileSystem} {ext : Extension} {depth : Nat} {above : List Location}
    {shown : Path} {directory : Location} {name : Name} {node : Node} {part : List Path}
    (h : filesAt fs ext depth above shown directory (name, node) = .ok part) :
    part = [] ∨ (ext.text <:+ name ∧ part = [Path.join shown name]) ∨
      ∃ location entries, reach fs above (Path.join shown name) directory name node =
          .ok (.directory location entries) ∧
        filesBelow fs ext depth (location :: above) (Path.join shown name) location entries =
          .ok part := by
  unfold filesAt at h
  simp only at h
  cases hreach : reach fs above (Path.join shown name) directory name node with
  | error fault =>
    rw [hreach] at h
    cases h
  | ok reached =>
    rw [hreach] at h
    -- a file is listed if its name ends with the extension, a directory is entered
    cases reached with
    | file =>
      cases h
      split
      · rename_i hmatches
        exact .inr (.inl ⟨Extension.matches?_iff.1 hmatches, rfl⟩)
      · exact .inl rfl
    | directory location entries => exact .inr (.inr ⟨location, entries, rfl, h⟩)

/-- Collecting lists step by step is collecting all of them and joining them. -/
theorem foldlM_append_eq {ε α β : Type} {step : List β → α → Except ε (List β)}
    {part : α → Except ε (List β)} (hstep : ∀ acc x, step acc x = (part x).map (acc ++ ·))
    (xs : List α) (init : List β) :
    xs.foldlM step init = (xs.mapM part).map (init ++ ·.flatten) := by
  -- what was collected before stays in front, so the induction is for every start
  induction xs generalizing init with
  | nil => exact congrArg Except.ok (List.append_nil init).symm
  | cons x rest ih =>
    rw [List.foldlM_cons, List.mapM_cons, hstep]
    cases part x with
    | error e => rfl
    | ok ys =>
      show rest.foldlM step (init ++ ys) = _
      rw [ih]
      show _ = ((rest.mapM part).bind fun tail => .ok (ys :: tail)).map _
      cases rest.mapM part with
      | error e => rfl
      | ok tail =>
        show Except.ok (init ++ ys ++ tail.flatten) = Except.ok (init ++ (ys :: tail).flatten)
        rw [List.flatten_cons, List.append_assoc]

/-- What is found below a directory is what its entries add. -/
theorem filesBelow_succ (fs : FileSystem) (ext : Extension) (depth : Nat) (above : List Location)
    (shown : Path) (directory : Location) (entries : List (Name × Node)) :
    filesBelow fs ext (depth + 1) above shown directory entries =
      (entries.mapM (filesAt fs ext depth above shown directory)).map List.flatten := by
  unfold filesBelow
  -- each step appends what its entry adds
  refine (foldlM_append_eq (fun files entry => ?_) entries []).trans rfl
  obtain ⟨name, node⟩ := entry
  unfold filesAt
  simp only
  cases reach fs above (Path.join shown name) directory name node with
  | error fault => rfl
  | ok reached =>
    cases reached with
    | file =>
      show Except.ok (if ext.matches? name then files ++ [Path.join shown name] else files) =
        Except.ok (files ++ if ext.matches? name then [Path.join shown name] else [])
      split <;> simp
    | directory location more => rfl

/-- What is found in a directory is what its entries give, one after the other. -/
theorem exists_parts_filesBelow {fs : FileSystem} {ext : Extension} {depth : Nat}
    {above : List Location} {shown : Path} {directory : Location} {entries : List (Name × Node)}
    {paths : List Path}
    (h : filesBelow fs ext (depth + 1) above shown directory entries = .ok paths) :
    ∃ parts, List.Forall₂
      (fun entry part => filesAt fs ext depth above shown directory entry = .ok part)
      entries parts ∧ paths = parts.flatten := by
  rw [filesBelow_succ] at h
  cases hparts : entries.mapM (filesAt fs ext depth above shown directory) with
  | error fault =>
    rw [hparts] at h
    cases h
  | ok parts =>
    rw [hparts] at h
    cases h
    exact ⟨parts, (mapM_eq_ok_iff _ _ _).1 hparts, rfl⟩

/-- The files below a directory of a well-formed tree are at the ends of distinct routes. -/
theorem exists_routes_filesBelow {fs : FileSystem} (hroot : fs.root.WellFormed) {ext : Extension}
    {depth : Nat} {above : List Location} {shown : Path} {directory : Location}
    {entries : List (Name × Node)} (hentries : (Node.directory entries).WellFormed)
    {paths : List Path} (h : filesBelow fs ext depth above shown directory entries = .ok paths) :
    AtRoutes ext shown (entries.map Prod.fst) paths := by
  induction depth generalizing above shown directory entries paths with
  | zero =>
    cases h
    exact atRoutes_nil _
  | succ depth ih =>
    obtain ⟨parts, hparts, rfl⟩ := exists_parts_filesBelow h
    obtain ⟨hsound, hdistinct⟩ := hentries.entries
    -- the entries have distinct names, so it is enough to look at one of them
    refine AtRoutes.flatten hdistinct (((List.forall₂_and_left entries _).2 ⟨hsound, hparts⟩).imp ?_)
    rintro ⟨name, node⟩ part ⟨⟨hname, hnode⟩, hpart⟩
    obtain rfl | ⟨hext, rfl⟩ | ⟨location, more, hreach, hbelow⟩ := filesAt_cases hpart
    · exact atRoutes_nil _
    · exact atRoutes_singleton hname hext
    · -- walked with less depth, and well-formed like everything that can be reached
      exact (ih (wellFormed_reach hroot hnode hreach) hbelow).cons hname

end Files

namespace FileSystem

open Files

/-- The files that a scan finds are at the ends of distinct routes. -/
theorem exists_routes_scan {fs : FileSystem} (hroot : fs.root.WellFormed) {base : Path}
    {ext : Extension} {paths : List Path} (h : fs.scan base ext = some (.ok paths)) :
    ∃ routes : List (List Name), paths.Perm (routes.map (Path.along base)) ∧ routes.Nodup ∧
      ∀ route ∈ routes, IsRoute ext route := by
  unfold scan at h
  -- a scan that succeeds found a directory and no fault below it; sorting keeps the paths
  split at h
  · rename_i location entries hfind
    cases hbelow : filesBelow fs ext fs.walkDepth [location] base location entries with
    | error fault =>
      rw [hbelow] at h
      cases h
    | ok found =>
      rw [hbelow] at h
      cases h
      obtain ⟨routes, rfl, hnodup, hroutes⟩ :=
        exists_routes_filesBelow hroot (wellFormed_find hroot hfind) hbelow
      exact ⟨routes, Path.perm_sorted _, hnodup, fun route hroute => (hroutes route hroute).1⟩
  · cases h

/-- A file that is found below a resolved directory is at the end of a route. -/
theorem exists_route_of_mem_scan {fs : FileSystem} (hroot : fs.root.WellFormed) {base : Path}
    {ext : Extension} {paths : List Path} (h : fs.scan base ext = some (.ok paths)) {file : Path}
    (hfile : file ∈ paths) : ∃ route, IsRoute ext route ∧ file = Path.along base route := by
  obtain ⟨routes, hperm, -, hroutes⟩ := exists_routes_scan hroot h
  obtain ⟨route, hroute, rfl⟩ := List.mem_map.1 (hperm.mem_iff.1 hfile)
  exact ⟨route, hroutes route hroute, rfl⟩

/-- No file is found twice by the same path. -/
theorem nodup_scan {fs : FileSystem} (hroot : fs.root.WellFormed) {base : Path}
    (hbase : Path.IsResolved base) {ext : Extension} {paths : List Path}
    (h : fs.scan base ext = some (.ok paths)) : paths.Nodup := by
  obtain ⟨routes, hperm, hnodup, hroutes⟩ := exists_routes_scan hroot h
  refine hperm.nodup_iff.2 (hnodup.map_on fun route hroute other hother hsame => ?_)
  exact Path.along_injective hbase (hroutes route hroute).isName (hroutes other hother).isName hsame

end FileSystem

end Stencil
