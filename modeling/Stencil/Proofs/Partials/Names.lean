import Stencil.Partials.Checked
import Stencil.Proofs.Files.Scan
import Stencil.Proofs.Partials.Memo

/-!
# Which names are unique

A partial is named after the path of its file below the directory, with a slash for every backslash.
While a path has no backslash there, its name says which file it is (`path_of_scanned`): the one that
is called so below the directory, with the extension. So plain files have names of their own
(`nodup_names`), and each is found under its name. Only a backslash can make two names one, and it
does (`names_of_clashing_site`).

* **`names_of_answer`**: what this says of the answers of a registry, at any moment of a run.
-/

namespace Stencil

/-- There is no backslash in the path of the file below the directory. -/
def Path.PlainBelow (base file : Path) : Prop := ∀ rest ∈ Path.below? base file, '\\' ∉ rest

section Route

variable {base : Path} (hbase : Path.IsResolved base) {ext : Extension} {route : List Files.Name}
  (hroute : Files.IsRoute ext route)

include hbase hroute

/-- A partial is named after its route. -/
theorem nameOfPartial?_along : nameOfPartial? base (Path.along base route) ext =
    some (String.ofList (ext.strip (Path.storage (Path.joined route)))) := by
  unfold nameOfPartial?
  rw [Path.below?_along hbase hroute.isName hroute.ne_nil]
  rfl

/-- The name of a plain file and the extension are its path below the directory. -/
theorem along_eq_join_of_plain (hplain : Path.PlainBelow base (Path.along base route))
    {name : String} (hname : nameOfPartial? base (Path.along base route) ext = some name) :
    Path.along base route = Path.join base (name.toList ++ ext.text) := by
  have hbackslash : '\\' ∉ Path.joined route :=
    hplain _ (Path.below?_along hbase hroute.isName hroute.ne_nil)
  obtain ⟨stem, hstem⟩ := hroute.suffix
  rw [nameOfPartial?_along hbase hroute, Path.storage_of_backslash_not_mem hbackslash, ← hstem,
    Extension.strip_append] at hname
  cases hname
  rw [String.toList_ofList, hstem, Path.join_joined hbase hroute.isName hroute.ne_nil]

end Route

section Scan

variable {fs : FileSystem} (hroot : fs.root.WellFormed) {base : Path}
  (hbase : Path.IsResolved base) {ext : Extension} {paths : List Path}
  (hscan : fs.scan base ext = some (.ok paths))

include hroot hbase hscan

/-- The file of a plain name is called so below the directory, with the extension. -/
theorem path_of_scanned {file : Path} (hfile : file ∈ paths)
    (hplain : Path.PlainBelow base file) {name : String}
    (hname : nameOfPartial? base file ext = some name) :
    file = Path.join base (name.toList ++ ext.text) := by
  obtain ⟨route, hroute, rfl⟩ := FileSystem.exists_route_of_mem_scan hroot hscan hfile
  exact along_eq_join_of_plain hbase hroute hplain hname

/-- Plain files have names of their own. -/
theorem nodup_names {partials : PartialList}
    (hnamed : List.Forall₂ (fun file entry => nameOfPartial? base file ext = some entry.1) paths
      partials.entries)
    (hplain : ∀ file ∈ paths, Path.PlainBelow base file) : partials.names.Nodup := by
  have hnames : paths.map (nameOfPartial? base · ext) = partials.names.map some := by
    unfold PartialList.names
    rw [← List.forall₂_eq_eq_eq, List.forall₂_map_left_iff, List.forall₂_map_right_iff,
      List.forall₂_map_right_iff]
    exact hnamed
  -- so the names are distinct if naming the files is injective
  refine List.Nodup.of_map some ?_
  rw [← hnames]
  refine (FileSystem.nodup_scan hroot hbase hscan).map_on fun file hfile other hother hsame => ?_
  -- every file has a name, and both are the file of that name
  have hmem : nameOfPartial? base file ext ∈ partials.names.map some :=
    hnames ▸ List.mem_map_of_mem hfile
  obtain ⟨name, -, hname⟩ := List.mem_map.1 hmem
  rw [path_of_scanned hroot hbase hscan hfile (hplain file hfile) hname.symm,
    path_of_scanned hroot hbase hscan hother (hplain other hother) (hsame.symm.trans hname.symm)]

end Scan

namespace Registry

open Session

/-- A session finds well-formed trees, if it starts with one and changes to such. -/
theorem wellFormed_run {files : FileSystem} {steps : List Step} (hfiles : files.root.WellFormed)
    (hchanges : ∀ later, .change later ∈ steps → later.root.WellFormed) :
    (run files steps).files.root.WellFormed := by
  induction steps using List.reverseRecOn with
  | nil => exact hfiles
  | append_singleton steps step ih =>
    have hbefore := ih fun later hlater => hchanges later (List.mem_append_left [step] hlater)
    rw [run_append_singleton]
    cases step with
    | get ext dir options => exact hbefore
    | invalidate => exact hbefore
    | change later => exact hchanges later (List.mem_append_right steps List.mem_cons_self)

/-- A list that is answered was loaded at some moment of the run. -/
theorem loaded_of_answer {files : FileSystem} {steps : List Step} {ext : Extension}
    {dir base : Path} {options : CompileOptions}
    (hdir : resolvePath (run files steps).files.currentPath dir = .ok base)
    {partials : PartialList} (h : (run files steps).answer ext (some dir) options = .ok partials) :
    ∃ earlier, earlier <+: steps ∧
      loaded (run files earlier).files.provider base ext options = .ok partials := by
  unfold answer at h
  rw [get_of_resolve hdir] at h
  exact answer_getResolved (fun key partials hcached => loaded_of_cached files steps hcached)
    (fun base partials hloaded => ⟨steps, List.prefix_rfl, hloaded⟩) h

/-- **Names are unique but for backslashes.** In a run over well-formed trees, a list that is answered
has one partial for each file of a scan that was made at some moment, in the order of the files and
each file once. The path of a file that has no backslash below the directory is given by its name and
the extension, so no other such file has this name. If there is no backslash in any of them, all
names are different, and every partial is what its name is looked up as. -/
theorem names_of_answer {files : FileSystem} {steps : List Step} (hfiles : files.root.WellFormed)
    (hchanges : ∀ later, .change later ∈ steps → later.root.WellFormed) {ext : Extension}
    {dir : Path} {options : CompileOptions} {partials : PartialList}
    (h : (run files steps).answer ext (some dir) options = .ok partials) :
    ∃ base, Path.resolve (run files steps).files.currentPath dir = .ok base ∧
      ∃ earlier paths, earlier <+: steps ∧
        (run files earlier).files.scan base ext = some (.ok paths) ∧ paths.Nodup ∧
        List.Forall₂ (fun file entry => (run files earlier).files.HoldsPartial base ext entry.1
          entry.2.source file) paths partials.entries ∧
        (∀ file ∈ paths, Path.PlainBelow base file → ∀ name,
          nameOfPartial? base file ext = some name →
            file = Path.join base (name.toList ++ ext.text)) ∧
        ((∀ file ∈ paths, Path.PlainBelow base file) → partials.names.Nodup ∧
          ∀ entry ∈ partials.entries, partials.get? entry.1 = some entry.2) := by
  cases hdir : resolvePath (run files steps).files.currentPath dir with
  | error e =>
    unfold answer at h
    rw [get_of_not_resolve hdir] at h
    cases h
  | ok base =>
    have hresolve := resolvePath_eq_ok_iff.1 hdir
    have hbase : Path.IsResolved base :=
      Path.isResolved_of_resolve (run files steps).files.isAbsolute_of_mem_currentPath hresolve
    -- the answer was loaded after some prefix of the run, and what it holds is read off the scan
    -- then
    obtain ⟨earlier, hearlier, hloaded⟩ := loaded_of_answer hdir h
    have hroot : (run files earlier).files.root.WellFormed :=
      wellFormed_run hfiles fun later hlater => hchanges later (hearlier.subset hlater)
    obtain ⟨paths, hscan, hentries⟩ := (loaded_eq_ok_iff ..).1 hloaded
    have hscan := FileSystem.provider_scan_eq_ok_iff.1 hscan
    have hholds : List.Forall₂ (fun file entry => (run files earlier).files.HoldsPartial base ext
        entry.1 entry.2.source file) paths partials.entries :=
      ((List.forall₂_and_left paths _).2 ⟨fun file hfile => hfile, hentries⟩).imp
        fun file entry hentry =>
          (FileSystem.holdsPartial_of_loadedFile hscan hentry.1 hentry.2).2
    refine ⟨base, hresolve, earlier, paths, hearlier, hscan,
      FileSystem.nodup_scan hroot hbase hscan, hholds, fun file hfile hplain name hname =>
        path_of_scanned hroot hbase hscan hfile hplain hname, fun hplain => ?_⟩
    have hnodup := nodup_names hroot hbase hscan (hholds.imp fun file entry hentry => hentry.named)
      hplain
    exact ⟨hnodup, fun entry hentry => PartialList.get?_of_mem hnodup hentry⟩

/-- A site with the template `sub/a.hbs`, and another one that is called `sub\a.hbs`. -/
def clashingSite : FileSystem where
  root := .directory [("partials".toList, .directory
    [("sub\\a.hbs".toList, .file (.text "y")),
      ("sub".toList, .directory [("a.hbs".toList, .file (.text "x"))])])]
  current := []

/-- Two names that differ by a backslash are two names. -/
theorem wellFormed_clashingSite : clashingSite.root.WellFormed := by
  have hfile (text : String) : (Files.Node.file (.text text)).WellFormed := .file _
  have hsub : (Files.Node.directory [("a.hbs".toList, .file (.text "x"))]).WellFormed :=
    .directory _ (by simp [Files.Name.Valid]) (by simp) (by simp [hfile])
  have hpartials : (Files.Node.directory [("sub\\a.hbs".toList, .file (.text "y")),
      ("sub".toList, .directory [("a.hbs".toList, .file (.text "x"))])]).WellFormed :=
    .directory _ (by simp [Files.Name.Valid]) (by simp) (by simpa [hfile] using hsub)
  exact .directory _ (by simp [Files.Name.Valid]) (by simp) (by simpa using hpartials)

/-- Both templates of the site have the same name, and only one is found under it. -/
theorem names_of_clashing_site :
    clashingSite.root.WellFormed ∧
    ∃ partials, (run clashingSite []).answer .standard (some "partials".toList) {} = .ok partials ∧
      partials.names = ["sub/a", "sub/a"] ∧ ¬ partials.names.Nodup ∧
      partials.get? "sub/a" = some ⟨"x", {}⟩ ∧ ("sub/a", ⟨"y", {}⟩) ∈ partials.entries := by
  refine ⟨wellFormed_clashingSite,
    ⟨[("sub/a", ⟨"x", {}⟩), ("sub/a", ⟨"y", {}⟩)]⟩, rfl, rfl, ?_, rfl, ?_⟩
  · decide
  · simp

/-- In spite of the clash the name of the plain file of the site says where the file is. -/
theorem names_of_plain_file :
    ∃ paths, clashingSite.scan "/partials".toList .standard = some (.ok paths) ∧ paths.Nodup ∧
      ∀ file ∈ paths, Path.PlainBelow "/partials".toList file →
        nameOfPartial? "/partials".toList file .standard = some "sub/a" →
          file = "/partials/sub/a.hbs".toList := by
  have hanswer : (run clashingSite []).answer .standard (some "partials".toList) {} =
      .ok ⟨[("sub/a", ⟨"x", {}⟩), ("sub/a", ⟨"y", {}⟩)]⟩ := rfl
  obtain ⟨base, hbase, earlier, paths, hearlier, hscan, hnodup, -, hpaths, -⟩ :=
    names_of_answer wellFormed_clashingSite (by simp) hanswer
  cases hbase
  cases List.prefix_nil.1 hearlier
  exact ⟨paths, hscan, hnodup, fun file hfile hplain hname => hpaths file hfile hplain _ hname⟩

end Registry

end Stencil
