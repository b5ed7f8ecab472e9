import Stencil.Proofs.Partials.Directory
import Stencil.Proofs.Path.Routes
import Stencil.Proofs.Plugin.Reaction

/-!
# How a watched directory is spelled

A registry resolves the directory that it is asked for. A watcher resolves the path of a change and
compares it, as a text, with the directory as it is spelled. The directory of a plugin is resolved
before either of them gets it; here a watcher is given any spelling.

A resolved path that goes on behind a text with a slash can only do so if the text is a resolved path
itself (`IsResolved.of_append_slash`), and then it is what the spelling resolves to. So nothing but the
resolved path, with slashes behind it, is a spelling that a watcher takes (`exists_slashes_of_within`).

* **`react_to_loaded_file`**: which changes of the files that a lookup loads lead to a reload.
-/

namespace Stencil

namespace Path

/-! ## Slashes at the end of a directory -/

/-- Slashes at the end of a directory do not matter where texts are compared. -/
theorem within_append_slashes {dir : Path} (hdir : isAbsolute dir = true) (p : Path) (n : Nat) :
    within p (dir ++ List.replicate n '/') = within p dir := by
  have hstorage : storage (dir ++ List.replicate n '/') = storage dir ++ List.replicate n '/' := by
    -- an absolute path has no marker, so its storage form is taken character by character
    cases dir with
    | nil => cases hdir
    | cons c rest =>
      have hc : c = '/' := by simpa [isAbsolute] using hdir
      have hslashes : slashed (List.replicate n '/') = List.replicate n '/' := by
        unfold slashed
        rw [List.map_replicate]
        rfl
      rw [hc, List.cons_append, storage_slash_cons, storage_slash_cons, slashed_append, hslashes]
      rfl
  unfold within
  rw [hstorage, trimSlashes_append_replicate]

/-- A resolved path with slashes behind it resolves to itself. -/
theorem IsResolved.resolve_append_slashes {p : Path} (h : IsResolved p) (current : Option Path)
    (n : Nat) : resolve current (p ++ List.replicate n '/') = .ok p := by
  have habsolute : Path.isAbsolute (p ++ List.replicate n '/') = true := by
    cases p with
    | nil =>
      have hnil := h.isAbsolute
      cases hnil
    | cons c rest => exact h.isAbsolute
  have hcollapse : collapse (p ++ List.replicate n '/') = collapse p := by
    unfold collapse lexical
    rw [components_append_slashes h.isAbsolute]
  rw [resolve_of_isAbsolute habsolute, hcollapse, ← resolve_of_isAbsolute h.isAbsolute current,
    h.resolve_eq]

/-- What stands in front of a slash of a resolved path is a resolved path, or nothing. -/
theorem IsResolved.of_append_slash {front more : Path} (h : IsResolved (front ++ '/' :: more))
    (hne : front ≠ []) : IsResolved front := by
  obtain ⟨names, hnames, hpath⟩ := h.exists_names
  have hpath : front ++ '/' :: more = '/' :: joined names := hpath
  have hsegments : segments front ++ segments more = [] :: segments (joined names) := by
    rw [← segments_append_slash, hpath]
    rfl
  -- the pieces of the front are the first ones: an empty one, and then names
  obtain hnil | ⟨pieces, hfront, hpieces⟩ := List.append_eq_cons_iff.1 hsegments
  · exact absurd hnil.1 (segments_ne_nil front)
  · have hjoined := joined_segments front
    rw [hfront] at hjoined
    cases pieces with
    | nil => exact absurd hjoined.symm hne
    | cons piece rest =>
      have hnames' : ∀ name ∈ piece :: rest, IsName name := by
        cases names with
        | nil =>
          -- the root has but one piece behind its slash, which is not in the front
          have hlength : 1 = (piece :: rest).length + (segments more).length := by
            rw [← List.length_append, ← hpieces]
            rfl
          have hmore := List.length_pos_iff.2 (segments_ne_nil more)
          rw [List.length_cons] at hlength
          omega
        | cons name others =>
          have hslash : ∀ other ∈ name :: others, '/' ∉ other := fun other hother =>
            (hnames other hother).noSlash
          rw [segments_joined (by simp) hslash] at hpieces
          intro other hother
          refine hnames other ?_
          rw [hpieces]
          exact List.mem_append_left _ hother
      rw [← hjoined]
      exact isResolved_toPath hnames'

/-! ## Spellings that match -/

/-- If a resolved path is within a directory as it is spelled, the spelling is what it resolves to, with
slashes behind it. -/
theorem exists_slashes_of_within {current : Option Path} {dir base p : Path}
    (hdir : resolve current dir = .ok base) (hp : IsResolved p) (hplain : '\\' ∉ dir)
    (hplain' : '\\' ∉ p) (h : within p dir = true) :
    ∃ n, dir = base ++ List.replicate n '/' := by
  obtain ⟨n, hn⟩ := trimSlashes_append_slashes dir
  -- it is enough that the text which is compared is resolved
  have ofResolved (front : Path) (m : Nat) (hfront : IsResolved front)
      (hspelled : dir = front ++ List.replicate m '/') :
      ∃ n, dir = base ++ List.replicate n '/' := by
    have hbase := hfront.resolve_append_slashes current m
    rw [← hspelled, hdir] at hbase
    cases hbase
    exact ⟨m, hspelled⟩
  by_cases hnil : trimSlashes dir = []
  · -- nothing but slashes, which is the root
    rw [hnil, List.nil_append] at hn
    cases n with
    | zero =>
      rw [hn] at hdir
      cases hdir
    | succ n =>
      have hroot : IsResolved ['/'] := isResolved_toPath (List.forall_mem_nil IsName)
      exact ofResolved ['/'] n hroot hn
  · unfold within at h
    rw [storage_of_backslash_not_mem hplain, storage_of_backslash_not_mem hplain'] at h
    cases hdrop : dropFront? (trimSlashes dir) p with
    | none =>
      rw [hdrop] at h
      cases h
    | some tail =>
      have hpath := dropFront?_eq_some.1 hdrop
      rw [hdrop] at h
      refine ofResolved (trimSlashes dir) n ?_ hn
      cases tail with
      | nil =>
        rw [List.append_nil] at hpath
        exact hpath ▸ hp
      | cons c more =>
        have hc : c = '/' := by simpa using h
        rw [hpath, hc] at hp
        exact hp.of_append_slash hnil

end Path

open Files

/-- **Changes of loaded files.** Nothing is kept for a directory with these options, and a lookup
succeeds; it resolves the directory to `base`, scans it, and loads the files that it finds. A watcher is
given the directory in the same spelling. The notice of a change of any of these files leads to a
reload, and the registry is emptied, if the spelling is that of `base`, with slashes behind it or
without. If it is another one, and there are no backslashes, the notice does nothing. -/
theorem Watcher.react_to_loaded_file {files : FileSystem} (hroot : files.root.WellFormed) {dir : Path}
    {ext : Extension} {options : CompileOptions} {registry : Registry} {partials : PartialList}
    (hnew : ∀ base, Path.resolve files.currentPath dir = .ok base →
      registry.cached ⟨ext, base, options⟩ = none)
    (hget : (registry.get files.provider ext (some dir) options).1 = .ok partials) :
    ∃ base paths, Path.resolve files.currentPath dir = .ok base ∧
      files.scan base ext = some (.ok paths) ∧
      List.Forall₂ (fun file entry =>
        Registry.loadedFile files.provider base ext options file = .ok entry) paths partials.entries ∧
      ∀ file ∈ paths, ∀ kept : Registry,
        let reaction := Watcher.react ⟨some dir⟩ files.currentPath kept file
        ((∃ n, dir = base ++ List.replicate n '/') →
          reaction = ⟨.reloaded, kept.invalidate, [.forgetModules, .reload]⟩) ∧
        ('\\' ∉ dir → '\\' ∉ file → (¬ ∃ n, dir = base ++ List.replicate n '/') →
          reaction = ⟨.ignored, kept, []⟩) := by
  cases hresolved : resolvePath files.provider.current dir with
  | error e =>
    rw [Registry.get_of_not_resolve hresolved] at hget
    cases hget
  | ok base =>
    have hdir : Path.resolve files.currentPath dir = .ok base := resolvePath_eq_ok_iff.1 hresolved
    have hbase : Path.IsResolved base :=
      Path.isResolved_of_resolve files.isAbsolute_of_mem_currentPath hdir
    rw [Registry.get_of_not_cached hdir (hnew base hdir), Registry.loaded_eq_ok_iff] at hget
    obtain ⟨paths, hscan, hentries⟩ := hget
    have hscan := FileSystem.provider_scan_eq_ok_iff.1 hscan
    refine ⟨base, paths, hdir, hscan, hentries, fun file hfile kept => ?_⟩
    obtain ⟨route, hroute, rfl⟩ := FileSystem.exists_route_of_mem_scan hroot hscan hfile
    -- the path of a scanned file is resolved already
    have hseen : Path.IsResolved (Path.along base route) :=
      Path.isResolved_along hbase hroute.isName
    have hresolve := hseen.resolve_eq files.currentPath
    intro reaction
    obtain ⟨hreaction, hoff⟩ | ⟨hreaction, other, hother, hwithin⟩ :=
      Watcher.react_cases ⟨some dir⟩ files.currentPath kept (Path.along base route)
    · refine ⟨?_, fun _ _ _ => hreaction⟩
      rintro ⟨n, hn⟩
      have hwithin := Path.within_of_atOrBelow hbase hseen (Path.atOrBelow_along hbase hroute.isName)
      rw [← Path.within_append_slashes hbase.isAbsolute (Path.along base route) n, ← hn] at hwithin
      have hoff := hoff dir rfl
      rw [hresolve] at hoff
      exact absurd hwithin (Bool.eq_false_iff.1 hoff)
    · refine ⟨fun _ => hreaction, fun hplain hplain' hspelled => ?_⟩
      cases hother
      rw [hresolve] at hwithin
      exact absurd (Path.exists_slashes_of_within hdir hseen hplain hplain' hwithin) hspelled

theorem wellFormed_siteWith (text : Option String) : (Registry.siteWith text).root.WellFormed := by
  have hfile (content : Content) : (Node.file content).WellFormed := .file content
  have hsite : (Node.directory (text.toList.map fun text =>
      ("a.hbs".toList, .file (.text text)))).WellFormed := by
    refine .directory _ ?_ ?_ ?_ <;> cases text <;> simp [Name.Valid, hfile]
  exact .directory _ (by simp [Name.Valid]) (by simp) (by simpa using hsite)

/-- Slashes behind the resolved path make no difference; a `.` in it does. -/
theorem react_to_loaded_file_of_site :
    let files := Registry.siteWith (some "x")
    let react (dir : Path) := Watcher.react ⟨some dir⟩ files.currentPath {} "/site/a.hbs".toList
    react "/site//".toList = ⟨.reloaded, {}, [.forgetModules, .reload]⟩ ∧
    react "/./site".toList = ⟨.ignored, {}, []⟩ := by
  intro files react
  have hroot := wellFormed_siteWith (some "x")
  have hnew (base : Path) : ({} : Registry).cached ⟨.standard, base, {}⟩ = none := rfl
  have hget (dir : Path) (hdir : resolvePath files.provider.current dir = .ok "/site".toList) :
      (Registry.get {} files.provider .standard (some dir) {}).1 = .ok ⟨[("a", ⟨"x", {}⟩)]⟩ := by
    rw [Registry.get_of_resolve hdir]
    rfl
  -- both spellings resolve alike, so the same file is found
  have hfound {base : Path} {paths : List Path}
      (hbase : (.ok "/site".toList : Except Path.Unresolved Path) = .ok base)
      (hscan : files.scan base .standard = some (.ok paths)) :
      base = "/site".toList ∧ "/site/a.hbs".toList ∈ paths := by
    cases hbase
    have hpaths : some (Except.ok ["/site/a.hbs".toList]) = some (.ok paths) := hscan
    cases hpaths
    exact ⟨rfl, List.mem_cons_self⟩
  constructor
  · obtain ⟨base, paths, hdir, hscan, -, hreact⟩ :=
      Watcher.react_to_loaded_file hroot (fun base _ => hnew base) (hget "/site//".toList rfl)
    obtain ⟨rfl, hmem⟩ := hfound hdir hscan
    exact (hreact _ hmem {}).1 ⟨2, rfl⟩
  · obtain ⟨base, paths, hdir, hscan, -, hreact⟩ :=
      Watcher.react_to_loaded_file hroot (fun base _ => hnew base) (hget "/./site".toList rfl)
    obtain ⟨rfl, hmem⟩ := hfound hdir hscan
    refine (hreact _ hmem {}).2 (by decide) (by decide) ?_
    rintro ⟨n, hn⟩
    cases hn

/-- A relative spelling: the registry finds the template, and the notice of its change does nothing. -/
theorem react_to_file_of_relative_site :
    let files := Registry.siteWith (some "x")
    let looked := Registry.get {} files.provider .standard (some "site".toList) {}
    looked.1 = .ok ⟨[("a", ⟨"x", {}⟩)]⟩ ∧
      files.scan "/site".toList .standard = some (.ok ["/site/a.hbs".toList]) ∧
      Watcher.react ⟨some "site".toList⟩ files.currentPath looked.2 "/site/a.hbs".toList =
        ⟨.ignored, looked.2, []⟩ := by
  intro files looked
  have hdir : resolvePath files.provider.current "site".toList = .ok "/site".toList := rfl
  have hlooked : looked = Registry.getResolved {} files.provider .standard "/site".toList {} :=
    Registry.get_of_resolve hdir
  refine ⟨?_, rfl, ?_⟩
  · rw [hlooked]
    rfl
  · -- the directory is compared as it is spelled, and that is relative
    unfold Watcher.react
    exact if_neg (by decide)

end Stencil
