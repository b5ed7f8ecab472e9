import Stencil.Proofs.Partials.Directory
import Stencil.Proofs.Partials.Work

/-!
# Loads that fail

A load goes through the files of a scan in their order and ends at the first that holds no template: one
that cannot be read as a text, or whose text is rejected. The error names this file (`FailsWith`), and
nothing is kept of the files before it.

* **`get_of_bad_file`**: the answer and what is left, down to the counts; no file behind the bad one
takes part. The registry that is left answers every call as the one before did, so what was kept is still
served, and once all files hold templates the same call succeeds.
-/

namespace Stencil

namespace FileSystem

/-- The file can be read as a text, and the text is accepted. -/
def HoldsTemplate (fs : FileSystem) (file : Path) : Prop :=
  ∃ text, fs.readText file = .ok text ∧ ∃ document, Template.Document.ofSource text = .ok document

/-- What is wrong with a file that holds no template, as an error that names it. -/
inductive FailsWith (fs : FileSystem) (file : Path) : Error → Prop
  | unreadable {fault : Files.Fault} (hread : fs.readText file = .error fault) :
      FailsWith fs file (.io .readTemplate file fault)
  | rejected {text : String} {rejection : Template.Rejection} (hread : fs.readText file = .ok text)
      (hrejected : Template.Document.ofSource text = .error rejection) :
      FailsWith fs file (.templateSyntax (String.ofList file) rejection)

variable {fs : FileSystem} {file : Path}

/-- A file that holds no template cannot be read or is rejected. -/
theorem exists_failsWith (h : ¬fs.HoldsTemplate file) : ∃ error, fs.FailsWith file error := by
  cases hread : fs.readText file with
  | error fault => exact ⟨_, .unreadable hread⟩
  | ok text =>
    cases hsource : Template.Document.ofSource text with
    | error rejection => exact ⟨_, .rejected hread hsource⟩
    | ok document => exact absurd ⟨text, hread, document, hsource⟩ h

/-- What holds a template is read and accepted. -/
theorem FailsWith.not_holdsTemplate {error : Error} (h : fs.FailsWith file error) :
    ¬fs.HoldsTemplate file := by
  rintro ⟨text, hread, document, haccepted⟩
  cases h with
  | unreadable hread' =>
    rw [hread] at hread'
    cases hread'
  | rejected hread' hrejected =>
    rw [hread] at hread'
    cases hread'
    rw [haccepted] at hrejected
    cases hrejected

/-- Only what is read from the file matters. -/
theorem FailsWith.of_readText_eq {other : FileSystem} {error : Error} (h : fs.FailsWith file error)
    (hsame : other.readText file = fs.readText file) : other.FailsWith file error := by
  cases h with
  | unreadable hread => exact .unreadable (hsame.trans hread)
  | rejected hread hrejected => exact .rejected (hsame.trans hread) hrejected

/-- Of files that do not all hold a template, one is the first. -/
theorem exists_first_bad {files : List Path} (h : ∃ file ∈ files, ¬fs.HoldsTemplate file) :
    ∃ before file after, files = before ++ file :: after ∧
      (∀ p ∈ before, fs.HoldsTemplate p) ∧ ¬fs.HoldsTemplate file := by
  induction files with
  | nil =>
    obtain ⟨file, hmem, -⟩ := h
    cases hmem
  | cons first rest ih =>
    by_cases hfirst : fs.HoldsTemplate first
    · -- the first file is good, so the bad one is among the rest
      obtain ⟨file, hmem, hbad⟩ := h
      obtain rfl | hmem := List.mem_cons.1 hmem
      · exact absurd hfirst hbad
      obtain ⟨before, bad, after, rfl, hbefore, hbad⟩ := ih ⟨file, hmem, hbad⟩
      exact ⟨first :: before, bad, after, rfl, List.forall_mem_cons.2 ⟨hfirst, hbefore⟩, hbad⟩
    · exact ⟨[], first, rest, rfl, List.forall_mem_nil _, hfirst⟩

end FileSystem

namespace Registry

open Files

section Loading

variable {fs : FileSystem} {base : Path} {ext : Extension}

/-- A file with a template takes a read and a check. -/
theorem loadedFile_of_holdsTemplate (options : CompileOptions) (hbase : Path.IsResolved base)
    {route : List Name} (hroute : IsRoute ext route)
    (h : fs.HoldsTemplate (Path.along base route)) :
    ∃ entry, loadedFile fs.provider base ext options (Path.along base route) = .ok entry ∧
      fileWork fs.provider base ext options (Path.along base route) = ⟨0, 1, 1⟩ := by
  obtain ⟨text, hread, haccepted⟩ := h
  have hloaded :
      loadedFile fs.provider base ext options (Path.along base route) = .ok (_, ⟨text, options⟩) :=
    loadedFile_along hbase hroute hread haccepted
  -- a file that is loaded was read once and checked once
  obtain ⟨entry, hentry, hwork⟩ | ⟨e, -, -, hfails, -⟩ :=
    @fileWork_cases fs.provider base ext options (Path.along base route)
  · exact ⟨entry, hentry, hwork⟩
  · rw [hloaded] at hfails
    cases hfails

/-- A file without one is read, and checked only if it is a text. -/
theorem loadedFile_of_failsWith (options : CompileOptions) (hbase : Path.IsResolved base)
    {route : List Name} (hroute : IsRoute ext route) {error : Error}
    (h : fs.FailsWith (Path.along base route) error) :
    loadedFile fs.provider base ext options (Path.along base route) = .error error ∧
      fileWork fs.provider base ext options (Path.along base route) =
        ⟨0, 1, if (fs.readText (Path.along base route)).isOk then 1 else 0⟩ := by
  rw [loadedFile_eq, fileWork_eq, nameOfPartial?_along hbase hroute]
  cases h with
  | @unreadable fault hread =>
    have hprovider : fs.provider.read (Path.along base route) =
        .error (.io .readTemplate (Path.along base route) fault) := by
      simp only [FileSystem.provider, hread]
    simp only [hprovider, hread, Except.bind]
    exact ⟨trivial, rfl⟩
  -- an unreadable file was read; a rejected one was checked as well
  | @rejected text rejection hread hrejected =>
    have hcheck (template : String) :
        checkTemplate template text options = .error (.templateSyntax template rejection) := by
      unfold checkTemplate
      rw [hrejected]
    simp only [FileSystem.provider_read_eq_ok_iff.2 hread, hread, Except.bind, hcheck]
    exact ⟨rfl, rfl⟩

/-- What loading does with files of which one holds no template and those before it do. -/
theorem loadFiles_of_first_bad (options : CompileOptions) (hbase : Path.IsResolved base)
    {before after : List Path} {file : Path}
    (hroutes : ∀ p ∈ before ++ file :: after, ∃ route, IsRoute ext route ∧ p = Path.along base route)
    (hbefore : ∀ p ∈ before, fs.HoldsTemplate p) {error : Error} (hfile : fs.FailsWith file error) :
    (before ++ file :: after).mapM (loadedFile fs.provider base ext options) = .error error ∧
      filesWork fs.provider base ext options (before ++ file :: after) =
        ⟨0, before.length + 1, before.length + if (fs.readText file).isOk then 1 else 0⟩ := by
  have hbad : loadedFile fs.provider base ext options file = .error error ∧
      fileWork fs.provider base ext options file =
        ⟨0, 1, if (fs.readText file).isOk then 1 else 0⟩ := by
    obtain ⟨route, hroute, rfl⟩ := hroutes file (by simp)
    exact loadedFile_of_failsWith options hbase hroute hfile
  have hgood (p : Path) (hp : p ∈ before) :
      ∃ entry, loadedFile fs.provider base ext options p = .ok entry ∧
        fileWork fs.provider base ext options p = ⟨0, 1, 1⟩ := by
    obtain ⟨route, hroute, rfl⟩ := hroutes p (List.mem_append_left _ hp)
    exact loadedFile_of_holdsTemplate options hbase hroute (hbefore _ hp)
  refine ⟨mapM_eq_error_of_first (fun p hp => (hgood p hp).imp fun _ => And.left) hbad.1, ?_⟩
  -- the work adds up file by file and stops at the bad one
  clear hroutes hbefore
  induction before with
  | nil =>
    rw [List.nil_append, filesWork_cons, hbad.1]
    simp [hbad.2]
  | cons first before ih =>
    obtain ⟨⟨entry, hentry, hwork⟩, hrest⟩ := List.forall_mem_cons.1 hgood
    rw [List.cons_append, filesWork_cons, hentry]
    simp only
    rw [hwork, ih hrest]
    simp only [Work.plus, List.length_cons]
    congr 1 <;> omega

end Loading

/-! ## Looking up -/

section Looking

variable {fs : FileSystem} {registry : Registry} {ext : Extension} {dir base : Path}
  {options : CompileOptions}

/-- Only the lists that are kept take part in an answer. -/
theorem get_fst_of_cached_eq {other : Registry} (h : ∀ key, other.cached key = registry.cached key)
    (provider : TemplateProvider) (ext : Extension) (dir : Option Path) (options : CompileOptions) :
    (other.get provider ext dir options).1 = (registry.get provider ext dir options).1 :=
  get_fst_congr (fun base => by rw [getResolved_fst, getResolved_fst, h]) dir

/-- A lookup that misses, if the first file without a template is known. -/
theorem get_of_first_bad (hroot : fs.root.WellFormed)
    (hdir : Path.resolve fs.currentPath dir = .ok base)
    (hnew : registry.cached ⟨ext, base, options⟩ = none) {before after : List Path} {file : Path}
    (hscan : fs.scan base ext = some (.ok (before ++ file :: after)))
    (hbefore : ∀ p ∈ before, fs.HoldsTemplate p) {error : Error} (hfile : fs.FailsWith file error) :
    registry.get fs.provider ext (some dir) options =
      (.error error,
        { cache := registry.cache.missed
          work := registry.work.plus
            ⟨1, before.length + 1, before.length + if (fs.readText file).isOk then 1 else 0⟩ }) := by
  have hbase : Path.IsResolved base :=
    Path.isResolved_of_resolve fs.isAbsolute_of_mem_currentPath hdir
  obtain ⟨hloaded, hwork⟩ := loadFiles_of_first_bad options hbase
    (fun p hp => FileSystem.exists_route_of_mem_scan hroot hscan hp) hbefore hfile
  have hprovider := FileSystem.provider_scan_eq_ok_iff.2 hscan
  have hanswer : loaded fs.provider base ext options = .error error := by
    rw [loaded_eq, hprovider]
    exact congrArg (Except.map PartialList.mk) hloaded
  -- nothing is cached, so the request is a miss with the load as its answer and its work
  rw [get_of_resolve (resolvePath_eq_ok_iff.2 hdir), getResolved_of_not_cached hnew, hanswer,
    loadWork_eq, hprovider]
  simp only
  rw [hwork]
  simp [Work.plus]

/-- A lookup that misses, if all files hold templates. -/
theorem get_of_no_bad_file (hroot : fs.root.WellFormed)
    (hdir : Path.resolve fs.currentPath dir = .ok base)
    (hnew : registry.cached ⟨ext, base, options⟩ = none) {files : List Path}
    (hscan : fs.scan base ext = some (.ok files)) (hgood : ∀ file ∈ files, fs.HoldsTemplate file) :
    ∃ partials, (registry.get fs.provider ext (some dir) options).1 = .ok partials ∧
      List.Forall₂ (fun file entry => fs.readText file = .ok entry.2.source ∧
        entry.2.options = options) files partials.entries := by
  have hbase : Path.IsResolved base :=
    Path.isResolved_of_resolve fs.isAbsolute_of_mem_currentPath hdir
  -- the paths of a scan are routes below its base, each with a file that is good
  obtain ⟨routes, rfl, hroutes⟩ := FileSystem.exists_routes_of_scan hroot hbase hscan
  obtain ⟨partials, hloaded, hentries⟩ := exists_loaded hbase hscan fun route hroute =>
    ⟨((hroutes route).1 hroute).1, hgood _ (List.mem_map_of_mem hroute)⟩
  refine ⟨partials, (get_of_not_cached hdir hnew).trans hloaded, ?_⟩
  rw [List.forall₂_map_left_iff]
  exact hentries.imp fun route entry hentry => hentry.2

end Looking

/-- **A load that fails keeps nothing.** A lookup misses, its directory can be scanned, and some of the
files do not hold a template: they cannot be read as text, or their text is rejected. The files are in
the strict order of the bytes of their paths.

* The answer is the error of the first bad file. The directory was scanned once, the files up to the bad
one were read, and those of them that are texts were checked. Of the cache only the count of misses
changes.
* The files behind the bad one take no part: whatever they hold, the answer and the registry are the
same.
* The registry that is left answers every call, with whatever files, as the one before did. The lists
that were kept are still served.
* As soon as all files hold templates, the same call succeeds; the registry need not be invalidated. -/
theorem get_of_bad_file {fs : FileSystem} (hroot : fs.root.WellFormed) {registry : Registry}
    {ext : Extension} {dir base : Path} {options : CompileOptions}
    (hdir : Path.resolve fs.currentPath dir = .ok base)
    (hnew : registry.cached ⟨ext, base, options⟩ = none) {files : List Path}
    (hscan : fs.scan base ext = some (.ok files)) (hbad : ∃ file ∈ files, ¬fs.HoldsTemplate file) :
    ∃ before file after error, files = before ++ file :: after ∧
      files.Pairwise (fun a b => utf8 a < utf8 b) ∧
      (∀ p ∈ before, fs.HoldsTemplate p) ∧ fs.FailsWith file error ∧
      registry.get fs.provider ext (some dir) options =
        (.error error,
          { cache := { registry.cache with misses := registry.cache.misses + 1 }
            work := registry.work.plus
              ⟨1, before.length + 1, before.length + if (fs.readText file).isOk then 1 else 0⟩ }) ∧
      (∀ other : FileSystem, other.root.WellFormed → other.currentPath = fs.currentPath →
        other.scan base ext = some (.ok files) →
        (∀ p ∈ before ++ [file], other.readText p = fs.readText p) →
        registry.get other.provider ext (some dir) options =
          registry.get fs.provider ext (some dir) options) ∧
      let left := (registry.get fs.provider ext (some dir) options).2
      (∀ provider ext dir options,
        (left.get provider ext dir options).1 = (registry.get provider ext dir options).1) ∧
      (∀ key partials, registry.cached key = some partials → ∀ provider,
        (left.getResolved provider key.extension key.directory key.options).1 = .ok partials) ∧
      (∀ later : FileSystem, later.root.WellFormed → Path.resolve later.currentPath dir = .ok base →
        ∀ files, later.scan base ext = some (.ok files) →
        (∀ file ∈ files, later.HoldsTemplate file) →
        ∃ partials, (left.get later.provider ext (some dir) options).1 = .ok partials ∧
          List.Forall₂ (fun file entry => later.readText file = .ok entry.2.source ∧
            entry.2.options = options) files partials.entries) := by
  have hbase : Path.IsResolved base :=
    Path.isResolved_of_resolve fs.isAbsolute_of_mem_currentPath hdir
  obtain ⟨before, file, after, rfl, hbefore, hfile⟩ := FileSystem.exists_first_bad hbad
  obtain ⟨error, herror⟩ := FileSystem.exists_failsWith hfile
  have hget := get_of_first_bad hroot hdir hnew hscan hbefore herror
  have hkept (key : Configuration) :
      (registry.get fs.provider ext (some dir) options).2.cached key = registry.cached key := by
    rw [hget]
    rfl
  refine ⟨before, file, after, error, rfl, ?_, hbefore, herror, hget, ?_, ?_, ?_, ?_⟩
  · exact (FileSystem.pairwise_lt_scan hroot hbase hscan).imp lt_iff_utf8_lt.1
  · -- the file system that agrees up to the bad file has the same first bad file
    intro other hother hcurrent hsame hread
    have hreadFile := hread file (by simp)
    rw [hget, ← hreadFile]
    refine get_of_first_bad hother (hcurrent ▸ hdir) hnew hsame (fun p hp => ?_)
      (herror.of_readText_eq hreadFile)
    obtain ⟨text, htext, haccepted⟩ := hbefore p hp
    exact ⟨text, (hread p (List.mem_append_left _ hp)).trans htext, haccepted⟩
  · exact get_fst_of_cached_eq hkept
  · intro key partials hcached provider
    rw [getResolved_fst, hkept, hcached]
  · -- the failure cached nothing, so a later request loads again
    intro later hlater hresolve files hfound hgood
    exact get_of_no_bad_file hlater hresolve ((hkept _).trans hnew) hfound hgood

/-- A site with three templates of which the first is in order. -/
def threeFiles (second third : Content) : FileSystem where
  root := .directory
    [("site".toList, .directory
      [("c.hbs".toList, .file third), ("b.hbs".toList, .file second),
        ("a.hbs".toList, .file (.text "x"))])]
  current := []

theorem wellFormed_threeFiles (second third : Content) : (threeFiles second third).root.WellFormed := by
  have hfile (content : Content) : (Node.file content).WellFormed := .file content
  have hsite : (Node.directory
      [("c.hbs".toList, .file third), ("b.hbs".toList, .file second),
        ("a.hbs".toList, .file (.text "x"))]).WellFormed :=
    .directory _ (by simp [Name.Valid]) (by simp) (by simp [hfile])
  exact .directory _ (by simp [Name.Valid]) (by simp) (by simpa using hsite)

/-- The second file is no text and the third is rejected: the second is reported and the third is not
even read. After both are written anew the lookup succeeds. -/
theorem get_of_three_files :
    let broken := threeFiles .binary (.text "\x7b\x7b")
    let repaired := threeFiles (.text "y") (.text "z")
    let first := Registry.get {} broken.provider .standard (some "site".toList) {}
    first = (.error (.io .readTemplate "/site/b.hbs".toList .invalidData),
      ⟨{ misses := 1 }, ⟨1, 2, 1⟩⟩) ∧
    ∃ partials, (first.2.get repaired.provider .standard (some "site".toList) {}).1 = .ok partials ∧
      partials.entries.map (·.2.source) = ["x", "y", "z"] := by
  intro broken repaired first
  have hdir (second third : Content) :
      Path.resolve (threeFiles second third).currentPath "site".toList = .ok "/site".toList := rfl
  have hnew : ({} : Registry).cached ⟨.standard, "/site".toList, {}⟩ = none := rfl
  have hscan (second third : Content) : (threeFiles second third).scan "/site".toList .standard =
      some (.ok ["/site/a.hbs".toList, "/site/b.hbs".toList, "/site/c.hbs".toList]) := rfl
  have hfault : broken.readText "/site/b.hbs".toList = .error .invalidData := rfl
  have hgood : broken.HoldsTemplate "/site/a.hbs".toList := ⟨"x", rfl, _, rfl⟩
  have hbad : ¬broken.HoldsTemplate "/site/b.hbs".toList :=
    (FileSystem.FailsWith.unreadable hfault).not_holdsTemplate
  obtain ⟨before, file, after, error, hfiles, -, hbefore, hfails, hget, -, -, -, hlater⟩ :=
    get_of_bad_file (wellFormed_threeFiles .binary (.text "\x7b\x7b")) (hdir ..) hnew
      (hscan .binary (.text "\x7b\x7b")) ⟨_, by simp, hbad⟩
  -- of the three files the second is the first bad one
  have hplace : before = ["/site/a.hbs".toList] ∧ file = "/site/b.hbs".toList := by
    match before with
    | [] =>
      cases hfiles
      exact absurd hgood hfails.not_holdsTemplate
    | [p] =>
      cases hfiles
      exact ⟨rfl, rfl⟩
    | p :: q :: before =>
      obtain ⟨-, hrest⟩ := List.cons.inj hfiles
      obtain ⟨rfl, -⟩ := List.cons.inj hrest
      exact absurd (hbefore _ (by simp)) hbad
  obtain ⟨rfl, rfl⟩ := hplace
  refine ⟨?_, ?_⟩
  · refine hget.trans ?_
    rw [hfault]
    cases hfails with
    | unreadable hread =>
      rw [hfault] at hread
      cases hread
      rfl
    | rejected hread =>
      rw [hfault] at hread
      cases hread
  · have hx : repaired.readText "/site/a.hbs".toList = .ok "x" := rfl
    have hy : repaired.readText "/site/b.hbs".toList = .ok "y" := rfl
    have hz : repaired.readText "/site/c.hbs".toList = .ok "z" := rfl
    obtain ⟨⟨entries⟩, hpartials, hentries⟩ :=
      hlater repaired (wellFormed_threeFiles ..) (hdir ..) _ (hscan ..) fun file hfile => by
        simp only [List.mem_cons, List.not_mem_nil, or_false] at hfile
        obtain rfl | rfl | rfl := hfile
        · exact ⟨"x", hx, _, rfl⟩
        · exact ⟨"y", hy, _, rfl⟩
        · exact ⟨"z", hz, _, rfl⟩
    refine ⟨⟨entries⟩, hpartials, ?_⟩
    obtain _ | ⟨⟨hfirst, -⟩, _ | ⟨⟨hsecond, -⟩, _ | ⟨⟨hthird, -⟩, ⟨⟩⟩⟩⟩ := hentries
    rw [hx, Except.ok.injEq] at hfirst
    rw [hy, Except.ok.injEq] at hsecond
    rw [hz, Except.ok.injEq] at hthird
    simp [← hfirst, ← hsecond, ← hthird]

end Registry

end Stencil
