import Stencil.Proofs.Partials.Accepted

/-!
# The work of loading and looking up

What loading costs depends on what it loads alone: one scan, and if it succeeds one read and one check
for every file, up to the first file that fails (`loadWork_cases`). A lookup that hits does no work,
and one that misses does that of loading (`getResolved_hit`, `getResolved_miss`).
-/

namespace Stencil

namespace Registry

section Loading

variable (provider : TemplateProvider) (base : Path) (ext : Extension) (options : CompileOptions)

def fileWork (file : Path) : Work := Counted.cost (loadFile provider.counted base ext options file)

/-- The work of loading files, up to the first that fails. -/
def filesWork (files : List Path) : Work :=
  Counted.cost (files.mapM (loadFile provider.counted base ext options))

/-- A file with a name is read, and its text is checked. -/
theorem fileWork_eq (file : Path) :
    fileWork provider base ext options file =
      match nameOfPartial? base file ext with
      | none => {}
      | some _ =>
        match provider.read file with
        | .error _ => ⟨0, 1, 0⟩
        | .ok _ => ⟨0, 1, 1⟩ := by
  unfold fileWork loadFile
  cases nameOfPartial? base file ext with
  | none => rfl
  | some name =>
    simp only [TemplateProvider.counted_read, TemplateProvider.counted_check]
    -- the check is counted whether the template is accepted or not
    rw [Counted.cost_bind fun text =>
      (Counted.additive_answer (checkTemplate _ text options) ⟨0, 0, 1⟩).map (name, ·)]
    simp only [Counted.cost_map, Counted.outcome_answer, Counted.cost_answer]
    cases provider.read file <;> rfl

/-- The files after one that fails cost nothing, since they are not looked at. -/
theorem filesWork_cons (file : Path) (rest : List Path) :
    filesWork provider base ext options (file :: rest) =
      match loadedFile provider base ext options file with
      | .error _ => fileWork provider base ext options file
      | .ok _ => (fileWork provider base ext options file).plus
          (filesWork provider base ext options rest) := by
  refine (Counted.cost_mapM_cons (additive_loadFile provider base ext options) file rest).trans ?_
  unfold loadedFile
  cases Counted.outcome (loadFile provider.counted base ext options file) <;> rfl

/-- The scan is counted also where it fails, and then the files that it finds are loaded. -/
theorem loadWork_eq :
    loadWork provider base ext options =
      match provider.scan base ext with
      | .error _ => ⟨1, 0, 0⟩
      | .ok files => Work.plus ⟨1, 0, 0⟩ (filesWork provider base ext options files) := by
  unfold loadWork load
  simp only [TemplateProvider.counted_scan]
  rw [Counted.cost_bind fun files =>
    (Counted.Additive.mapM (additive_loadFile provider base ext options) files).map PartialList.mk]
  simp only [Counted.cost_map, Counted.outcome_answer, Counted.cost_answer]
  cases provider.scan base ext <;> rfl

/-! ## How much work -/

variable {provider base ext options}

/-- A file is read at most once, and checked only if it was read; a partial needs both. -/
theorem fileWork_cases (file : Path) :
    (∃ entry, loadedFile provider base ext options file = .ok entry ∧
      fileWork provider base ext options file = ⟨0, 1, 1⟩) ∨
    ∃ e reads checks, loadedFile provider base ext options file = .error e ∧
      fileWork provider base ext options file = ⟨0, reads, checks⟩ ∧ checks ≤ reads ∧ reads ≤ 1 := by
  rw [loadedFile_eq, fileWork_eq]
  cases nameOfPartial? base file ext with
  | none => exact .inr ⟨_, 0, 0, rfl, rfl, Nat.le_refl 0, Nat.zero_le 1⟩
  | some name =>
    cases provider.read file with
    | error e => exact .inr ⟨e, 1, 0, rfl, rfl, by omega, by omega⟩
    | ok text =>
      cases hcheck : checkTemplate (String.ofList file) text options with
      | error e => exact .inr ⟨e, 1, 1, by simp only [Except.bind, hcheck]; rfl, rfl, by omega, by omega⟩
      | ok t => exact .inl ⟨(name, t), by simp only [Except.bind, hcheck]; rfl, rfl⟩

/-- Every file is read and checked once, or the first one that fails ends it. -/
theorem filesWork_cases (files : List Path) :
    (∃ entries, files.mapM (loadedFile provider base ext options) = .ok entries ∧
      filesWork provider base ext options files = ⟨0, files.length, files.length⟩) ∨
    ∃ e reads checks, files.mapM (loadedFile provider base ext options) = .error e ∧
      filesWork provider base ext options files = ⟨0, reads, checks⟩ ∧ checks ≤ reads ∧
      reads ≤ files.length := by
  induction files with
  | nil => exact .inl ⟨[], rfl, rfl⟩
  | cons file rest ih =>
    rw [List.mapM_cons, filesWork_cons]
    -- a file that fails ends the load; after one that is read and accepted, the rest counts
    rcases fileWork_cases file with
      ⟨entry, hentry, hone⟩ | ⟨e, reads, checks, hfails, hpart, hchecks, hreads⟩
    · rw [hentry, hone]
      rcases ih with ⟨entries, hentries, hrest⟩ | ⟨e, reads, checks, hfails, hrest, hchecks, hreads⟩
      · left
        refine ⟨entry :: entries, by rw [hentries]; rfl, ?_⟩
        simp [hrest, Work.plus, Nat.add_comm]
      · right
        refine ⟨e, 1 + reads, 1 + checks, by rw [hfails]; rfl, by rw [hrest]; rfl, by omega, ?_⟩
        rw [List.length_cons]
        omega
    · rw [hfails]
      refine .inr ⟨e, reads, checks, rfl, hpart, hchecks, ?_⟩
      rw [List.length_cons]
      omega

/-- Loading scans once. If it succeeds, every file has been read and checked once. -/
theorem loadWork_cases :
    (∃ files partials, loaded provider base ext options = .ok partials ∧
      provider.scan base ext = .ok files ∧
      loadWork provider base ext options = ⟨1, files.length, files.length⟩) ∨
    ∃ e reads checks, loaded provider base ext options = .error e ∧
      loadWork provider base ext options = ⟨1, reads, checks⟩ ∧ checks ≤ reads := by
  rw [loaded_eq, loadWork_eq]
  cases provider.scan base ext with
  | error e => exact .inr ⟨e, 0, 0, rfl, rfl, Nat.le_refl 0⟩
  | ok files =>
    -- with the scan itself added to what the files cost
    rcases filesWork_cases files with
      ⟨entries, hentries, hwork⟩ | ⟨e, reads, checks, hfails, hwork, hchecks, -⟩
    · left
      refine ⟨files, ⟨entries⟩, ?_, rfl, ?_⟩
      · show Except.map _ (files.mapM _) = _
        rw [hentries]
        rfl
      · simp only
        rw [hwork]
        simp [Work.plus]
    · right
      refine ⟨e, reads, checks, ?_, ?_, hchecks⟩
      · show Except.map _ (files.mapM _) = _
        rw [hfails]
        rfl
      · simp only
        rw [hwork]
        simp [Work.plus]

end Loading

/-! ## Looking up -/

def addChecks (registry : Registry) (n : Nat) : Registry :=
  { registry with work := registry.work.plus ⟨0, 0, n⟩ }

/-- A check is counted whatever it answers, and that is all that it leaves. -/
theorem check_eq (registry : Registry) (template source : String) (options : CompileOptions) :
    registry.check template source options =
      (checkTemplate template source options, registry.addChecks 1) := rfl

def keys (registry : Registry) : List Configuration := registry.cache.entries.map Prod.fst

/-- What is cached is listed among the keys. -/
theorem isSome_cached_iff {registry : Registry} {key : Configuration} :
    (registry.cached key).isSome = true ↔ key ∈ registry.keys := isSome_lookup_iff

section Looking

variable {registry : Registry} {provider : TemplateProvider} {base : Path} {ext : Extension}
  {options : CompileOptions}

/-- A hit does nothing but count itself. -/
theorem getResolved_hit (h : ⟨ext, base, options⟩ ∈ registry.keys) :
    (registry.getResolved provider ext base options).2 =
      { registry with cache := { registry.cache with hits := registry.cache.hits + 1 } } := by
  obtain ⟨partials, hpartials⟩ := Option.isSome_iff_exists.1 (isSome_cached_iff.2 h)
  rw [getResolved_of_cached hpartials]

theorem cached_eq_none (h : ⟨ext, base, options⟩ ∉ registry.keys) :
    registry.cached ⟨ext, base, options⟩ = none := lookup_eq_none_iff_not_mem.2 h

/-- A miss loads the directory, and enters what was loaded. -/
theorem getResolved_miss (h : ⟨ext, base, options⟩ ∉ registry.keys) :
    (registry.getResolved provider ext base options).2 =
      { cache :=
          match loaded provider base ext options with
          | .error _ => registry.cache.missed
          | .ok partials => registry.cache.missed.insert ⟨ext, base, options⟩ partials
        work := registry.work.plus (loadWork provider base ext options) } :=
  congrArg Prod.snd (getResolved_of_not_cached (cached_eq_none h))

/-- What was checked before a lookup plays no part in it. -/
theorem getResolved_addChecks (n : Nat) :
    ((registry.addChecks n).getResolved provider ext base options).2 =
      (registry.getResolved provider ext base options).2.addChecks n := by
  by_cases h : ⟨ext, base, options⟩ ∈ registry.keys
  · have h' : ⟨ext, base, options⟩ ∈ (registry.addChecks n).keys := h
    rw [getResolved_hit h, getResolved_hit h']
    rfl
  · have h' : ⟨ext, base, options⟩ ∉ (registry.addChecks n).keys := h
    rw [getResolved_miss h, getResolved_miss h']
    unfold addChecks
    simp only
    rw [Work.plus_right_comm]

/-- A list that is entered after a miss is one more. -/
theorem entries_missed_insert {key : Configuration} (partials : PartialList)
    (h : key ∉ registry.keys) :
    (registry.cache.missed.insert key partials).entries = (key, partials) :: registry.cache.entries := by
  unfold Cache.insert
  simp only
  rw [List.filter_eq_self.2]
  · rfl
  intro entry hentry
  simp only [ne_eq, decide_not, Bool.not_eq_eq_eq_not, Bool.not_true, decide_eq_false_iff_not]
  rintro rfl
  exact h (List.mem_map_of_mem hentry)

/-- The three ways in which a lookup can leave the cache: with a hit, with a miss and nothing entered, or
with a miss and one list more. -/
theorem cache_getResolved_cases (registry : Registry) (provider : TemplateProvider) (ext : Extension)
    (base : Path) (options : CompileOptions) :
    let left := (registry.getResolved provider ext base options).2.cache
    (⟨ext, base, options⟩ ∈ registry.keys ∧ left.entries = registry.cache.entries ∧
      left.misses = registry.cache.misses) ∨
    ⟨ext, base, options⟩ ∉ registry.keys ∧ left.misses = registry.cache.misses + 1 ∧
      ((∃ e, loaded provider base ext options = .error e ∧
        left.entries = registry.cache.entries) ∨
      ∃ partials, loaded provider base ext options = .ok partials ∧
        left.entries = (⟨ext, base, options⟩, partials) :: registry.cache.entries) := by
  intro left
  by_cases h : ⟨ext, base, options⟩ ∈ registry.keys
  · have hleft : left = _ := congrArg cache (getResolved_hit h)
    exact .inl ⟨h, by rw [hleft], by rw [hleft]⟩
  · have hleft : left = _ := congrArg cache (getResolved_miss h)
    simp only at hleft
    right
    cases hloaded : loaded provider base ext options with
    | error e =>
      rw [hloaded] at hleft
      rw [hleft]
      exact ⟨h, rfl, .inl ⟨e, rfl, rfl⟩⟩
    | ok partials =>
      rw [hloaded] at hleft
      rw [hleft]
      exact ⟨h, rfl, .inr ⟨partials, rfl, entries_missed_insert partials h⟩⟩

/-- A lookup keeps what is kept, and enters its configuration if that could be loaded. -/
theorem mem_keys_getResolved {key : Configuration} :
    key ∈ (registry.getResolved provider ext base options).2.keys ↔
      key ∈ registry.keys ∨
        key = ⟨ext, base, options⟩ ∧ (loaded provider base ext options).isOk = true := by
  unfold keys
  obtain ⟨hkey, hentries, -⟩ | ⟨-, -, ⟨e, hfailed, hentries⟩ | ⟨partials, hloaded, hentries⟩⟩ :=
    registry.cache_getResolved_cases provider ext base options
  · rw [hentries]
    refine ⟨.inl, ?_⟩
    rintro (h | ⟨rfl, -⟩)
    · exact h
    · exact hkey
  · rw [hentries, hfailed]
    refine ⟨.inl, ?_⟩
    rintro (h | ⟨-, hok⟩)
    · exact h
    · cases hok
  · rw [hentries, hloaded, List.map_cons, List.mem_cons, or_comm]
    exact or_congr_right ⟨fun h => ⟨h, rfl⟩, And.left⟩

end Looking

/-! ## What is true of every registry -/

/-- A registry keeps one list for each configuration, each was loaded in a lookup that missed, and the
partials in them are accepted. -/
structure Orderly (registry : Registry) : Prop where
  checked : registry.Checked
  nodup : registry.keys.Nodup
  bounded : registry.cache.entries.length ≤ registry.cache.misses

/-- An empty registry is in order. -/
theorem orderly_of_cache_eq {registry : Registry} (h : registry.cache = {}) : registry.Orderly := by
  have hentries : registry.cache.entries = [] := by rw [h]
  refine ⟨checked_of_nothing_cached fun key => ?_, ?_, ?_⟩
  · unfold cached
    rw [hentries]
    rfl
  · unfold keys
    rw [hentries]
    exact .nil
  · rw [hentries]
    exact Nat.zero_le _

/-- The page renderer adds its checks to the work and leaves the cache alone. -/
theorem Orderly.addChecks {registry : Registry} (h : registry.Orderly) (n : Nat) :
    (registry.addChecks n).Orderly := ⟨h.checked, h.nodup, h.bounded⟩

/-- A hit changes one count; a miss adds at most one key, which is new. -/
theorem Orderly.getResolved {registry : Registry} (h : registry.Orderly) (provider : TemplateProvider)
    (ext : Extension) (base : Path) (options : CompileOptions) :
    (registry.getResolved provider ext base options).2.Orderly := by
  have hchecked := h.checked.getResolved provider ext base options
  obtain ⟨-, hentries, hmisses⟩ | ⟨hnew, hmisses, ⟨e, -, hentries⟩ | ⟨partials, -, hentries⟩⟩ :=
    registry.cache_getResolved_cases provider ext base options
  · refine ⟨hchecked, ?_, ?_⟩
    · unfold keys
      rw [hentries]
      exact h.nodup
    · rw [hentries, hmisses]
      exact h.bounded
  · refine ⟨hchecked, ?_, ?_⟩
    · unfold keys
      rw [hentries]
      exact h.nodup
    · -- a miss without an entry, so the bound has room to spare
      rw [hentries, hmisses]
      exact Nat.le_succ_of_le h.bounded
  · refine ⟨hchecked, ?_, ?_⟩
    · unfold keys
      rw [hentries, List.map_cons, List.nodup_cons]
      exact ⟨hnew, h.nodup⟩
    · rw [hentries, hmisses]
      exact Nat.succ_le_succ h.bounded

end Registry

end Stencil
