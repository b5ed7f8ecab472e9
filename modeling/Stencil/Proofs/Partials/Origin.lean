import Stencil.Proofs.Files.Scan

/-!
# Where partials come from

Every partial of a list that loading a directory gives is a file that the scan of this directory
found: it lies below the directory, its path ends with the extension, its name is taken from the
path and its source is the text of the file (`HoldsPartial`, `holdsPartial_of_loaded`).
-/

namespace Stencil

/-- What is on the right of related lists is related to something on the left. -/
theorem exists_mem_of_forall₂ {α β : Type} {related : α → β → Prop} {xs : List α} {ys : List β}
    (h : List.Forall₂ related xs ys) {y : β} (hy : y ∈ ys) : ∃ x ∈ xs, related x y := by
  induction h with
  | nil => cases hy
  | cons hxy _ ih =>
    rcases List.mem_cons.1 hy with rfl | hy
    · exact ⟨_, List.mem_cons_self, hxy⟩
    · obtain ⟨x, hx, hrelated⟩ := ih hy
      exact ⟨x, List.mem_cons_of_mem _ hx, hrelated⟩

namespace Files

/-- Joining keeps the path that is joined to at its end. -/
theorem suffix_join (base p : Path) : p <:+ Path.join base p := by
  unfold Path.join
  split
  · exact List.suffix_refl p
  · split
    · exact List.suffix_append base p
    · exact (List.suffix_cons '/' p).trans (List.suffix_append base ('/' :: p))

/-- Only paths that end with the extension are collected, at every depth. -/
theorem suffix_of_mem_filesBelow {fs : FileSystem} {ext : Extension} {depth : Nat}
    {above : List Location} {shown : Path} {directory : Location} {entries : List (Name × Node)}
    {paths : List Path} (h : filesBelow fs ext depth above shown directory entries = .ok paths) :
    ∀ p ∈ paths, ext.text <:+ p := by
  induction depth generalizing above shown directory entries paths with
  | zero =>
    cases h
    intro p hp
    cases hp
  | succ depth ih =>
    obtain ⟨parts, hparts, rfl⟩ := exists_parts_filesBelow h
    intro p hp
    obtain ⟨part, hpart, hp⟩ := List.mem_flatten.1 hp
    obtain ⟨⟨name, node⟩, -, hentry⟩ := exists_mem_of_forall₂ hparts hpart
    obtain rfl | ⟨hext, rfl⟩ | ⟨location, more, -, hbelow⟩ := filesAt_cases hentry
    · cases hp
    · rw [List.mem_singleton.1 hp]
      exact hext.trans (suffix_join shown name)
    · -- collected further down, where less depth is left
      exact ih hbelow p hp

end Files

namespace FileSystem

/-- The current directory is spelled from the root on. -/
theorem isAbsolute_of_mem_currentPath (fs : FileSystem) :
    ∀ dir ∈ fs.currentPath, Path.isAbsolute dir = true := by
  intro dir hdir
  unfold currentPath at hdir
  split at hdir
  · cases hdir
  · cases hdir
    rfl

/-- Every scanned path ends with the extension. -/
theorem suffix_of_mem_scan {fs : FileSystem} {base : Path} {ext : Extension} {paths : List Path}
    (h : fs.scan base ext = some (.ok paths)) {file : Path} (hfile : file ∈ paths) :
    ext.text <:+ file := by
  unfold scan at h
  split at h
  · rename_i location entries hfind
    -- sorting keeps the paths that were collected
    cases hbelow : Files.filesBelow fs ext fs.walkDepth [location] base location entries with
    | error fault =>
      rw [hbelow] at h
      cases h
    | ok found =>
      rw [hbelow] at h
      cases h
      exact Files.suffix_of_mem_filesBelow hbelow file ((Path.perm_sorted found).mem_iff.1 hfile)
  · cases h

/-- A file that the scan of `base` for `ext` finds, lying below `base` and ending with `ext`, gives
the partial `name` its source. -/
structure HoldsPartial (fs : FileSystem) (base : Path) (ext : Extension) (name source : String)
    (file : Path) : Prop where
  scanned : ∃ paths, fs.scan base ext = some (.ok paths) ∧ file ∈ paths
  below : Path.AtOrBelow base file
  ending : ext.text <:+ file
  named : nameOfPartial? base file ext = some name
  read : fs.readText file = .ok source

/-- The provider answers a scan when the file system does. -/
theorem provider_scan_eq_ok_iff {fs : FileSystem} {base : Path} {ext : Extension}
    {paths : List Path} :
    fs.provider.scan base ext = .ok paths ↔ fs.scan base ext = some (.ok paths) := by
  unfold provider
  cases hscan : fs.scan base ext with
  | none => simp [hscan]
  | some found =>
    cases found with
    | error fault => simp [hscan]
    | ok found => simp [hscan]

theorem provider_read_eq_ok_iff {fs : FileSystem} {file : Path} {text : String} :
    fs.provider.read file = .ok text ↔ fs.readText file = .ok text := by
  unfold provider
  cases hread : fs.readText file with
  | error fault => simp [hread]
  | ok found => simp [hread]

/-- What a scanned file gives is the partial that it holds, with the options asked for. -/
theorem holdsPartial_of_loadedFile {fs : FileSystem} {base : Path} {ext : Extension}
    {options : CompileOptions} {paths : List Path} (hscan : fs.scan base ext = some (.ok paths))
    {file : Path} (hfile : file ∈ paths) {entry : String × CheckedTemplate}
    (h : Registry.loadedFile fs.provider base ext options file = .ok entry) :
    entry.2.options = options ∧ fs.HoldsPartial base ext entry.1 entry.2.source file := by
  -- the entry was named, read and checked, each of which is one field
  obtain ⟨hname, hread, hcheck⟩ := (Registry.loadedFile_eq_ok_iff ..).1 h
  obtain ⟨rest, hbelow, -⟩ := Option.map_eq_some_iff.1 hname
  have hchecked := (checkTemplate_eq_ok_iff.1 hcheck).2
  refine ⟨congrArg CheckedTemplate.options hchecked, ?_⟩
  exact {
    scanned := ⟨paths, hscan, hfile⟩
    below := Path.components_prefix_of_below? hbelow
    ending := suffix_of_mem_scan hscan hfile
    named := hname
    read := provider_read_eq_ok_iff.1 hread }

/-- Every partial that loading gives is one of the directory, with the options asked for. -/
theorem holdsPartial_of_loaded {fs : FileSystem} {base : Path} {ext : Extension}
    {options : CompileOptions} {partials : PartialList}
    (h : Registry.loaded fs.provider base ext options = .ok partials) :
    ∀ entry ∈ partials.entries, entry.2.options = options ∧
      ∃ file, fs.HoldsPartial base ext entry.1 entry.2.source file := by
  intro entry hentry
  obtain ⟨files, hscan, hfiles⟩ := (Registry.loaded_eq_ok_iff ..).1 h
  obtain ⟨file, hfile, hloaded⟩ := exists_mem_of_forall₂ hfiles hentry
  obtain ⟨hoptions, hholds⟩ :=
    holdsPartial_of_loadedFile (provider_scan_eq_ok_iff.1 hscan) hfile hloaded
  exact ⟨hoptions, file, hholds⟩

end FileSystem

end Stencil
