import Mathlib.Data.List.Forall2
import Stencil.Proofs.Except
import Stencil.Proofs.Partials.Counting

/-!
# What loading and looking up give

The registry loads with tools that count. Here the answers are taken apart from the counts:

* **`loaded`**: what loading a directory answers. It is a scan and then, for every scanned file in
  order, the partial of that file (`loaded_eq`); what was counted before takes no part
  (`additive_load`).
* **`cached`**: the list that is kept for a configuration. The two equations `getResolved_fst` and
  `cached_getResolved` say what a lookup answers and what it leaves; later proofs use these and do
  not open the lookup again.
-/

namespace Stencil

namespace Cache

def missed (cache : Cache) : Cache := { cache with misses := cache.misses + 1 }

/-- What a cache holds after something was put in. -/
theorem lookup_insert (cache : Cache) (key other : Configuration) (partials : PartialList) :
    (cache.insert key partials).entries.lookup other =
      if other = key then some partials else cache.entries.lookup other := by
  -- a cache answers by its entries; the counts do not matter here
  have get_fst (cache : Cache) (key : Configuration) :
      (cache.get key).1 = cache.entries.lookup key := by
    unfold Cache.get
    cases cache.entries.lookup key <;> rfl
  rw [← get_fst, ← get_fst]
  split
  · rename_i hkey
    rw [hkey]
    exact get_insert_self cache key partials
  · rename_i hkey
    exact get_insert_of_ne hkey

end Cache

/-- A check succeeds if the source is accepted, and gives the source with the options. -/
theorem checkTemplate_eq_ok_iff {template source : String} {options : CompileOptions}
    {t : CheckedTemplate} :
    checkTemplate template source options = .ok t ↔
      (∃ document, Template.Document.ofSource source = .ok document) ∧ t = ⟨source, options⟩ := by
  unfold checkTemplate
  cases Template.Document.ofSource source with
  | error rejection => simp
  | ok document => simp [eq_comm]

/-- Resolving for a request is resolving a path; only the error is put differently. -/
theorem resolvePath_eq_ok_iff {current : Option Path} {p resolved : Path} :
    resolvePath current p = .ok resolved ↔ Path.resolve current p = .ok resolved := by
  unfold resolvePath
  cases Path.resolve current p with
  | ok r =>
    show Except.ok r = Except.ok resolved ↔ Except.ok r = Except.ok resolved
    rw [Except.ok.injEq, Except.ok.injEq]
  | error e =>
    constructor
    · intro h
      cases e <;> cases h
    · intro h
      cases h

namespace Registry

section Loading

variable (provider : TemplateProvider) (base : Path) (ext : Extension) (options : CompileOptions)

/-! ## Loading without the counts -/

def loadedFile (file : Path) : Except Error (String × CheckedTemplate) :=
  Counted.outcome (loadFile provider.counted base ext options file)

def loaded : Except Error PartialList :=
  Counted.outcome (load provider.counted base ext options)

def loadWork : Work := Counted.cost (load provider.counted base ext options)

/-- Loading a file reads and checks, each of which adds its own work. -/
theorem additive_loadFile (file : Path) :
    Counted.Additive (loadFile provider.counted base ext options file) := by
  unfold loadFile
  cases nameOfPartial? base file ext with
  | none => exact Counted.additive_throw _
  | some name =>
    exact (Counted.additive_answer (provider.read file) ⟨0, 1, 0⟩).bind fun text =>
      (Counted.additive_answer (checkTemplate _ text options) ⟨0, 0, 1⟩).map (name, ·)

/-- Loading a directory adds the work of scanning it and of loading its files. -/
theorem additive_load : Counted.Additive (load provider.counted base ext options) :=
  (Counted.additive_answer (provider.scan base ext) ⟨1, 0, 0⟩).bind fun files =>
    (Counted.Additive.mapM (additive_loadFile provider base ext options) files).map PartialList.mk

/-- A file gives a partial through its name, its text, and the check of the text. -/
theorem loadedFile_eq (file : Path) :
    loadedFile provider base ext options file =
      match nameOfPartial? base file ext with
      | none => .error (.invalidPath file base)
      | some name =>
        (provider.read file).bind fun text =>
          (checkTemplate (String.ofList file) text options).map (name, ·) := by
  unfold loadedFile loadFile
  cases nameOfPartial? base file ext with
  | none => rfl
  | some name =>
    simp only [TemplateProvider.counted_read, TemplateProvider.counted_check]
    -- the tools are counted here, and the counts are dropped
    rw [Counted.outcome_bind fun text =>
      (Counted.additive_answer (checkTemplate _ text options) ⟨0, 0, 1⟩).map (name, ·)]
    simp only [Counted.outcome_map, Counted.outcome_answer]

/-- Loading scans the directory and then loads every file, up to the first that fails. -/
theorem loaded_eq :
    loaded provider base ext options =
      (provider.scan base ext).bind fun files =>
        (files.mapM (loadedFile provider base ext options)).map PartialList.mk := by
  unfold loaded load
  rw [Counted.outcome_bind fun files =>
    (Counted.Additive.mapM (additive_loadFile provider base ext options) files).map PartialList.mk]
  simp only [TemplateProvider.counted_scan, Counted.outcome_map, Counted.outcome_answer,
    Counted.outcome_mapM (additive_loadFile provider base ext options)]
  rfl

/-- What a file needs to give a partial: a name below the base, and a readable text that is
accepted. -/
theorem loadedFile_eq_ok_iff {file : Path} {entry : String × CheckedTemplate} :
    loadedFile provider base ext options file = .ok entry ↔
      nameOfPartial? base file ext = some entry.1 ∧ provider.read file = .ok entry.2.source ∧
        checkTemplate (String.ofList file) entry.2.source options = .ok entry.2 := by
  rw [loadedFile_eq]
  cases hname : nameOfPartial? base file ext with
  | none => simp
  | some name =>
    cases hread : provider.read file with
    | error e => simp [Except.bind]
    | ok text =>
      simp only [Option.some.injEq, Except.ok.injEq, Except.bind]
      cases hcheck : checkTemplate (String.ofList file) text options with
      | error e =>
        constructor
        · intro h
          cases h
        · rintro ⟨_, hsource, haccepted⟩
          rw [← hsource, hcheck] at haccepted
          cases haccepted
      | ok t =>
        -- an accepted template carries the text that was checked
        have hsource : t.source = text := by rw [(checkTemplate_eq_ok_iff.1 hcheck).2]
        constructor
        · intro h
          cases h
          exact ⟨rfl, hsource.symm, hsource ▸ hcheck⟩
        · rintro ⟨hfst, htext, haccepted⟩
          rw [← htext, hcheck] at haccepted
          cases haccepted
          cases entry
          cases hfst
          rfl

/-- Loading succeeds exactly if the directory can be scanned and every file gives a partial; the
list holds these in the order of the files. -/
theorem loaded_eq_ok_iff {partials : PartialList} :
    loaded provider base ext options = .ok partials ↔
      ∃ files, provider.scan base ext = .ok files ∧
        List.Forall₂ (fun file entry => loadedFile provider base ext options file = .ok entry)
          files partials.entries := by
  rw [loaded_eq]
  cases provider.scan base ext with
  | error e => simp [Except.bind]
  | ok files =>
    -- a map that succeeds relates each file to its entry
    have hmap := mapM_eq_ok_iff (loadedFile provider base ext options) files partials.entries
    simp only [Except.bind, Except.ok.injEq, exists_eq_left']
    rw [← hmap]
    cases files.mapM (loadedFile provider base ext options) with
    | error e => simp [Except.map]
    | ok entries =>
      cases partials
      simp [Except.map]

end Loading

/-! ## Looking up -/

section Looking

variable {registry : Registry} {provider : TemplateProvider} {base : Path} {ext : Extension}
  {options : CompileOptions}

def cached (registry : Registry) (key : Configuration) : Option PartialList :=
  registry.cache.entries.lookup key

/-- A new registry has cached nothing. -/
@[simp] theorem cached_empty (key : Configuration) : cached {} key = none := rfl

@[simp] theorem cached_invalidate (key : Configuration) :
    registry.invalidate.cached key = none := rfl

/-- A configuration with a list: the list is the answer, and a hit is counted. -/
theorem getResolved_of_cached {partials : PartialList}
    (h : registry.cached ⟨ext, base, options⟩ = some partials) :
    registry.getResolved provider ext base options =
      (.ok partials,
        { registry with cache := { registry.cache with hits := registry.cache.hits + 1 } }) := by
  unfold cached at h
  unfold getResolved lookUp
  simp only [Cache.get, h]
  rfl

/-- A configuration without a list: a miss is counted, the directory is loaded, and what was loaded is
kept. -/
theorem getResolved_of_not_cached (h : registry.cached ⟨ext, base, options⟩ = none) :
    registry.getResolved provider ext base options =
      (loaded provider base ext options,
        { cache :=
            match loaded provider base ext options with
            | .error _ => registry.cache.missed
            | .ok partials => registry.cache.missed.insert ⟨ext, base, options⟩ partials
          work := registry.work.plus (loadWork provider base ext options) }) := by
  unfold cached at h
  have hload := additive_load provider base ext options registry.work
  unfold getResolved lookUp perform
  simp only [Cache.get, h, StateT.run_bind, Id.run_bind, hload]
  rfl

/-- A lookup answers with the list that is kept, or else as loading does. -/
theorem getResolved_fst :
    (registry.getResolved provider ext base options).1 =
      match registry.cached ⟨ext, base, options⟩ with
      | some partials => .ok partials
      | none => loaded provider base ext options := by
  cases hcached : registry.cached ⟨ext, base, options⟩ with
  | some partials => rw [getResolved_of_cached hcached]
  | none =>
    rw [getResolved_of_not_cached hcached]

/-- A lookup keeps its answer, if it is a list, and the other lists stay. -/
theorem cached_getResolved (key : Configuration) :
    (registry.getResolved provider ext base options).2.cached key =
      if key = ⟨ext, base, options⟩ then (registry.getResolved provider ext base options).1.toOption
      else registry.cached key := by
  cases hcached : registry.cached ⟨ext, base, options⟩ with
  | some partials =>
    -- a hit leaves the lists as they are, and its own is the answer
    rw [getResolved_of_cached hcached]
    split
    · rename_i hkey
      rw [hkey]
      exact hcached
    · rfl
  | none =>
    -- a miss enters what was loaded, and nothing after an error
    rw [getResolved_of_not_cached hcached]
    cases loaded provider base ext options with
    | error e =>
      show registry.cached key = if key = ⟨ext, base, options⟩ then none else registry.cached key
      split
      · rename_i hkey
        rw [hkey]
        exact hcached
      · rfl
    | ok partials =>
      show (registry.cache.missed.insert _ partials).entries.lookup key = _
      rw [Cache.lookup_insert]
      rfl

/-- A directory that resolves is asked for by its resolved path. -/
theorem get_of_resolve {dir : Path} (h : resolvePath provider.current dir = .ok base) :
    registry.get provider ext (some dir) options =
      registry.getResolved provider ext base options := by
  simp only [get, h]

/-- A directory that does not resolve is an error, and the registry is left alone. -/
theorem get_of_not_resolve {dir : Path} {e : Error}
    (h : resolvePath provider.current dir = .error e) :
    registry.get provider ext (some dir) options = (.error e, registry) := by
  simp only [get, h]

/-- Registries that answer alike once the directory is resolved answer alike. -/
theorem get_fst_congr {other : Registry}
    (h : ∀ base, (registry.getResolved provider ext base options).1 =
      (other.getResolved provider ext base options).1) (dir : Option Path) :
    (registry.get provider ext dir options).1 = (other.get provider ext dir options).1 := by
  cases dir with
  | none => rfl
  | some dir =>
    cases hresolve : resolvePath provider.current dir with
    | error e => rw [get_of_not_resolve hresolve, get_of_not_resolve hresolve]
    | ok base => rw [get_of_resolve hresolve, get_of_resolve hresolve, h]

/-! What holds of every list that is kept and of what loading gives holds of every answer, and of every
list that is kept after a lookup. -/

variable {holds : Configuration → PartialList → Prop}

/-- What holds of the cached lists and of every load holds of an answer. -/
theorem answer_getResolved
    (hkept : ∀ key partials, registry.cached key = some partials → holds key partials)
    (hloaded : ∀ base partials, loaded provider base ext options = .ok partials →
      holds ⟨ext, base, options⟩ partials) {partials : PartialList}
    (h : (registry.getResolved provider ext base options).1 = .ok partials) :
    holds ⟨ext, base, options⟩ partials := by
  rw [getResolved_fst] at h
  -- a miss answers by the load, a hit by the list cached
  cases hcached : registry.cached ⟨ext, base, options⟩ with
  | none =>
    rw [hcached] at h
    exact hloaded base partials h
  | some found =>
    rw [hcached] at h
    cases h
    exact hkept _ _ hcached

/-- Without a directory the answer is the empty list. -/
theorem answer_get
    (hkept : ∀ key partials, registry.cached key = some partials → holds key partials)
    (hloaded : ∀ base partials, loaded provider base ext options = .ok partials →
      holds ⟨ext, base, options⟩ partials) {dir : Option Path} {partials : PartialList}
    (h : (registry.get provider ext dir options).1 = .ok partials) :
    partials = {} ∨ ∃ base, holds ⟨ext, base, options⟩ partials := by
  -- without a directory the answer is the empty list
  cases dir with
  | none =>
    cases h
    exact .inl rfl
  | some dir =>
    cases hresolve : resolvePath provider.current dir with
    | error e =>
      rw [get_of_not_resolve hresolve] at h
      cases h
    | ok base =>
      rw [get_of_resolve hresolve] at h
      exact .inr ⟨base, answer_getResolved hkept hloaded h⟩

/-- What holds of the cached lists and of every load holds of what is cached after a request. -/
theorem kept_get
    (hkept : ∀ key partials, registry.cached key = some partials → holds key partials)
    (hloaded : ∀ base partials, loaded provider base ext options = .ok partials →
      holds ⟨ext, base, options⟩ partials) (dir : Option Path) (key : Configuration)
    (partials : PartialList)
    (h : (registry.get provider ext dir options).2.cached key = some partials) :
    holds key partials := by
  cases dir with
  | none => exact hkept key partials h
  | some dir =>
    cases hresolve : resolvePath provider.current dir with
    | error e =>
      rw [get_of_not_resolve hresolve] at h
      exact hkept key partials h
    | ok base =>
      rw [get_of_resolve hresolve, cached_getResolved] at h
      -- the list is the answer just given, or it was kept before
      split at h
      · rename_i hkey
        rw [hkey]
        exact answer_getResolved hkept hloaded (toOption_eq_some_iff.1 h)
      · exact hkept key partials h

end Looking

/-! ## Caches that are up to date -/

section Current

variable {registry : Registry} {provider : TemplateProvider}

/-- Every list that is kept is what loading its configuration gives. -/
def Current (registry : Registry) (provider : TemplateProvider) : Prop :=
  ∀ key partials, registry.cached key = some partials →
    loaded provider key.directory key.extension key.options = .ok partials

/-- A registry that has cached nothing has nothing out of date. -/
theorem current_of_nothing_cached (h : ∀ key, registry.cached key = none) :
    registry.Current provider := by
  intro key partials hcached
  rw [h] at hcached
  cases hcached

/-- Only the lists that are kept matter. -/
theorem Current.of_cached_eq {other : Registry} (h : registry.Current provider)
    (heq : ∀ key, other.cached key = registry.cached key) : other.Current provider := by
  intro key partials hcached
  rw [heq] at hcached
  exact h key partials hcached

/-- A registry that is up to date answers as loading does. -/
theorem Current.getResolved_fst (h : registry.Current provider) (ext : Extension) (base : Path)
    (options : CompileOptions) :
    (registry.getResolved provider ext base options).1 = loaded provider base ext options := by
  rw [Registry.getResolved_fst]
  cases hcached : registry.cached ⟨ext, base, options⟩ with
  | none => rfl
  | some partials => exact (h _ _ hcached).symm

/-- A lookup keeps a registry up to date. -/
theorem Current.get (h : registry.Current provider) (ext : Extension) (dir : Option Path)
    (options : CompileOptions) : (registry.get provider ext dir options).2.Current provider :=
  kept_get h (fun _ _ hloaded => hloaded) dir

/-- Checking a template keeps no list and drops none. -/
theorem Current.check (h : registry.Current provider) (template source : String)
    (options : CompileOptions) :
    (registry.check template source options).2.Current provider :=
  h.of_cached_eq fun _ => rfl

/-- Registries that are up to date with the same files answer alike. -/
theorem Current.get_fst_eq {other : Registry} (h : registry.Current provider)
    (hother : other.Current provider) (ext : Extension) (dir : Option Path)
    (options : CompileOptions) :
    (registry.get provider ext dir options).1 = (other.get provider ext dir options).1 :=
  get_fst_congr (fun base => (h.getResolved_fst ext base options).trans
    (hother.getResolved_fst ext base options).symm) dir

end Current

end Registry

end Stencil
