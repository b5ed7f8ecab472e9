import Mathlib.Data.List.Dedup
import Stencil.Proofs.Page.Rendering
import Stencil.Proofs.Partials.Work
import Stencil.Proofs.Plugin.Reaction

/-!
# What a registry counts

Runs in which everything that uses a registry uses one: lookups and invalidations, transformations by
plugins, renderings of pages, and notices of changed files, in any order, with any settings, and with
files that change in between. What a step asks for is read off the step and the files (`lookup?`,
`ownChecks`), without a look at what is counted. Every step is such a lookup, if it makes one, and some
checks of its own (`registry_next`), so the counts follow from those of lookups.

* **`accounting`**: in every reachable state the counts are those of the lookups since the last
  invalidation, and each further step adds to them what it should.
-/

namespace Stencil

namespace Accounting

/-- A step of a run: something that uses the registry, or a change of what it finds. -/
inductive Step where
  | get (ext : Extension) (dir : Option Path) (options : CompileOptions)
  | invalidate
  | transform (plugin : Plugin) (id code : String)
  | render (renderer : PageRenderer) (context : Option PageData) (request : PageRequest)
  | fileChanged (directory : Option Path) (changed : Path)
  | change (provider : TemplateProvider)

/-- A registry, and what provides its templates. -/
structure Session where
  registry : Registry := {}
  provider : TemplateProvider

/-- The configuration that a call asks for, if it has a directory that resolves. -/
def configuration? (provider : TemplateProvider) (ext : Extension) (dir : Option Path)
    (options : CompileOptions) : Option Configuration :=
  match dir with
  | none => none
  | some dir =>
    match Path.resolve provider.current dir with
    | .ok base => some ⟨ext, base, options⟩
    | .error _ => none

namespace Session

def next (s : Session) : Step → Session
  | .get ext dir options => { s with registry := (s.registry.get s.provider ext dir options).2 }
  | .invalidate => { s with registry := s.registry.invalidate }
  | .transform plugin id code =>
    { s with
      registry :=
        (Plugin.transform { plugin with registry := s.registry } s.provider id code).2.registry }
  | .render renderer context request =>
    { s with registry := (renderer.render s.registry s.provider context request).registry }
  | .fileChanged directory changed =>
    { s with
      registry := (Watcher.react ⟨directory⟩ s.provider.current s.registry changed).registry }
  | .change provider => { s with provider }

def run (s : Session) (steps : List Step) : Session := steps.foldl next s

def invalidates (s : Session) : Step → Bool
  | .invalidate => true
  | .fileChanged directory changed =>
    (Watcher.react ⟨directory⟩ s.provider.current s.registry changed).outcome = .reloaded
  | _ => false

/-- The configuration that a step looks up. A template that is transformed has to be one, and has to be
accepted; a notice and a change look nothing up. -/
def lookup? (s : Session) : Step → Option Configuration
  | .get ext dir options => configuration? s.provider ext dir options
  | .transform plugin id code =>
    if plugin.extension.matches? id.toList && (checkTemplate id code plugin.options).isOk then
      configuration? s.provider plugin.extension plugin.directory plugin.options
    else none
  | .render _ _ request =>
    configuration? s.provider request.extension request.directory request.options
  | _ => none

/-- How many templates a step checks that are no partials: a template that is transformed, and a page
whose partials are found and whose data is produced. -/
def ownChecks (s : Session) : Step → Nat
  | .transform plugin id _ => if plugin.extension.matches? id.toList then 1 else 0
  | .render _ context request =>
    match (s.registry.get s.provider request.extension request.directory request.options).1,
      (PageData.resolve? context).1 with
    | .ok _, .ok _ => 1
    | _, _ => 0
  | _ => 0

/-- The configuration that a step looks up, if its directory can be loaded now. -/
def loadable? (s : Session) (step : Step) : Option Configuration :=
  (s.lookup? step).filter fun key =>
    (Registry.loaded s.provider key.directory key.extension key.options).isOk

/-- The configurations that steps look up, in order. -/
def lookups (s : Session) : List Step → List Configuration
  | [] => []
  | step :: rest => (s.lookup? step).toList ++ (s.next step).lookups rest

/-- Those of them that could be loaded when they were looked up. -/
def loads (s : Session) : List Step → List Configuration
  | [] => []
  | step :: rest => (s.loadable? step).toList ++ (s.next step).loads rest

def quiet (s : Session) : List Step → Bool
  | [] => true
  | step :: rest => !s.invalidates step && (s.next step).quiet rest

/-- The session after the last invalidation, and the steps since. -/
def lastPeriod (s : Session) : List Step → Session × List Step
  | [] => (s, [])
  | step :: rest =>
    if s.quiet (step :: rest) then (s, step :: rest) else (s.next step).lastPeriod rest

/-- The misses of all periods that an invalidation has ended. -/
def endedMisses (s : Session) : List Step → Nat
  | [] => 0
  | step :: rest =>
    (if s.invalidates step then s.registry.counts.misses else 0) + (s.next step).endedMisses rest

/-- The registry after the lookup of a step, if it makes one. -/
def lookedUp (s : Session) (step : Step) : Registry :=
  match s.lookup? step with
  | none => s.registry
  | some key => (s.registry.getResolved s.provider key.extension key.directory key.options).2

end Session

open Session

section Serve

variable {registry : Registry} {provider : TemplateProvider} {ext : Extension} {dir : Option Path}
  {options : CompileOptions}

/-- A request that names no configuration does not reach the cache. -/
theorem get_of_configuration?_eq_none (h : configuration? provider ext dir options = none) :
    (registry.get provider ext dir options).2 = registry := by
  unfold configuration? at h
  cases dir with
  | none => rfl
  | some dir =>
    simp only at h
    cases hresolve : Path.resolve provider.current dir with
    | ok base =>
      rw [hresolve] at h
      cases h
    | error e =>
      -- the error of resolving is worded for the request, which is still an error
      have hnot : ∃ e, resolvePath provider.current dir = .error e := by
        unfold resolvePath
        rw [hresolve]
        cases e <;> exact ⟨_, rfl⟩
      obtain ⟨e, hnot⟩ := hnot
      rw [Registry.get_of_not_resolve hnot]

/-- A request that names a configuration is answered for it, with its directory resolved. -/
theorem get_of_configuration?_eq_some {key : Configuration}
    (h : configuration? provider ext dir options = some key) :
    registry.get provider ext dir options =
      registry.getResolved provider key.extension key.directory key.options := by
  unfold configuration? at h
  cases dir with
  | none => cases h
  | some dir =>
    simp only at h
    cases hresolve : Path.resolve provider.current dir with
    | error e =>
      rw [hresolve] at h
      cases h
    | ok base =>
      rw [hresolve] at h
      cases h
      exact Registry.get_of_resolve (resolvePath_eq_ok_iff.2 hresolve)

end Serve

/-! ## One step -/

/-- A call looks its configuration up, if it has one. -/
theorem get_snd (registry : Registry) (provider : TemplateProvider) (ext : Extension)
    (dir : Option Path) (options : CompileOptions) :
    (registry.get provider ext dir options).2 =
      match configuration? provider ext dir options with
      | none => registry
      | some key => (registry.getResolved provider key.extension key.directory key.options).2 := by
  cases h : configuration? provider ext dir options with
  | none => exact get_of_configuration?_eq_none h
  | some key => rw [get_of_configuration?_eq_some h]

/-- Checks made earlier are counted and do not matter for a request. -/
theorem get_addChecks (registry : Registry) (provider : TemplateProvider) (ext : Extension)
    (dir : Option Path) (options : CompileOptions) (n : Nat) :
    ((registry.addChecks n).get provider ext dir options).2 =
      (registry.get provider ext dir options).2.addChecks n := by
  rw [get_snd, get_snd]
  cases configuration? provider ext dir options with
  | none => rfl
  | some key => exact Registry.getResolved_addChecks n

/-- A template is checked, and if it is accepted its partials are looked up. -/
theorem registry_transform (plugin : Plugin) (provider : TemplateProvider) (id code : String) :
    (plugin.transform provider id code).2.registry =
      if plugin.extension.matches? id.toList then
        if (checkTemplate id code plugin.options).isOk then
          ((plugin.registry.addChecks 1).get provider plugin.extension plugin.directory
            plugin.options).2
        else plugin.registry.addChecks 1
      else plugin.registry := by
  unfold Plugin.transform
  cases plugin.extension.matches? id.toList with
  | false => rfl
  | true =>
    -- the target is checked first, and only an accepted one asks for the partials
    rw [Registry.check_eq]
    cases checkTemplate id code plugin.options with
    | error e => rfl
    | ok target =>
      simp only [Bool.not_true, Bool.false_eq_true, if_false, Except.isOk, Except.toBool, if_true]
      rcases (plugin.registry.addChecks 1).get provider plugin.extension plugin.directory
        plugin.options with ⟨answer, registry⟩
      cases answer <;> rfl

/-- The partials of a page are looked up, and the page is checked if they are found and its data is
produced. -/
theorem registry_render {registry : Registry} (hchecked : registry.Checked) (renderer : PageRenderer)
    (provider : TemplateProvider) (context : Option PageData) (request : PageRequest) :
    (renderer.render registry provider context request).registry =
      (registry.get provider request.extension request.directory request.options).2.addChecks
        (match (registry.get provider request.extension request.directory request.options).1,
          (PageData.resolve? context).1 with
        | .ok _, .ok _ => 1
        | _, _ => 0) := by
  cases hget : (registry.get provider request.extension request.directory request.options).1 with
  | error e =>
    rw [PageRenderer.render_of_not_found hget]
    rfl
  | ok partials =>
    have hregister := PageRenderer.registerPartials_fst renderer request (hchecked.accepted hget)
    have hends : PageRenderer.Ends renderer _ context request partials
        (renderer.render registry provider context request) := PageRenderer.ends_render hget
    generalize renderer.render registry provider context request = outcome at hends
    -- the page is checked once the partials and the data are there, whatever comes of it
    cases hends with
    | notRegistered hrejected =>
      rw [hrejected] at hregister
      cases hregister
    | noData _ hdata =>
      rw [hdata]
      rfl
    | notAccepted _ hdata _ =>
      rw [hdata]
      rfl
    | rendered data page _ hdata _ =>
      rw [hdata]
      rfl

/-- All steps that invalidate leave the same registry. -/
theorem registry_next_of_invalidates {s : Session} {step : Step} (h : s.invalidates step = true) :
    (s.next step).registry = s.registry.invalidate := by
  cases step with
  | invalidate => rfl
  | fileChanged directory changed =>
    obtain ⟨hreact, -⟩ | ⟨hreact, -⟩ :=
      Watcher.react_cases ⟨directory⟩ s.provider.current s.registry changed
    · simp [invalidates, hreact] at h
    · simp only [next, hreact]
  | get ext dir options => cases h
  | transform plugin id code => cases h
  | render renderer context request => cases h
  | change provider => cases h

/-- A step that does not invalidate the registry is its lookup and its own checks. -/
theorem registry_next {s : Session} (hchecked : s.registry.Checked) {step : Step}
    (h : s.invalidates step = false) :
    (s.next step).registry = (s.lookedUp step).addChecks (s.ownChecks step) := by
  cases step with
  | invalidate => cases h
  | change provider => rfl
  | fileChanged directory changed =>
    obtain ⟨hreact, -⟩ | ⟨hreact, -⟩ :=
      Watcher.react_cases ⟨directory⟩ s.provider.current s.registry changed
    · simp only [next, hreact]
      rfl
    · -- a change that is reacted to would have invalidated
      simp [invalidates, hreact] at h
  | get ext dir options => exact get_snd s.registry s.provider ext dir options
  | transform plugin id code =>
    simp only [next, lookedUp, lookup?, ownChecks]
    rw [registry_transform]
    cases plugin.extension.matches? id.toList with
    | false => rfl
    | true =>
      cases hcheck : (checkTemplate id code plugin.options).isOk with
      | false => simp
      | true =>
        simp only [if_true, Bool.and_self]
        rw [get_addChecks, get_snd]
  | render renderer context request =>
    simp only [next, lookedUp, lookup?, ownChecks]
    rw [registry_render hchecked, get_snd]

/-- A step that looks something up does not invalidate. -/
theorem invalidates_of_lookup? {s : Session} {step : Step} {key : Configuration}
    (h : s.lookup? step = some key) : s.invalidates step = false := by
  cases step with
  | invalidate => cases h
  | fileChanged directory changed => cases h
  | get ext dir options => rfl
  | transform plugin id code => rfl
  | render renderer context request => rfl
  | change provider => rfl

/-- Every step keeps the registry in order. -/
theorem orderly_next {s : Session} (h : s.registry.Orderly) (step : Step) :
    (s.next step).registry.Orderly := by
  cases hinvalidates : s.invalidates step with
  | true =>
    rw [registry_next_of_invalidates hinvalidates]
    exact Registry.orderly_of_cache_eq rfl
  | false =>
    rw [registry_next h.checked hinvalidates]
    refine Registry.Orderly.addChecks ?_ _
    unfold lookedUp
    cases s.lookup? step with
    | none => exact h
    | some key => exact h.getResolved _ _ _ _

section Step

variable {s : Session} (horderly : s.registry.Orderly) {step : Step}

include horderly

/-- A lookup keeps what could be loaded. -/
theorem mem_keys_next (h : s.invalidates step = false) {key : Configuration} :
    key ∈ (s.next step).registry.keys ↔ key ∈ s.registry.keys ∨ key ∈ s.loadable? step := by
  rw [registry_next horderly.checked h]
  show key ∈ (s.lookedUp step).keys ↔ _
  unfold lookedUp loadable?
  -- a key is new if the step asked for it and its load succeeds
  cases s.lookup? step with
  | none => simp
  | some asked =>
    simp only
    rw [Registry.mem_keys_getResolved, Option.mem_def, Option.filter_eq_some_iff,
      Option.some.injEq]
    refine or_congr_right ⟨?_, ?_⟩
    · rintro ⟨rfl, hok⟩
      exact ⟨rfl, hok⟩
    · rintro ⟨rfl, hok⟩
      exact ⟨rfl, hok⟩

/-- A step that looks nothing up adds its checks. -/
theorem next_of_lookup?_eq_none (h : s.invalidates step = false) (hnone : s.lookup? step = none) :
    (s.next step).registry = s.registry.addChecks (s.ownChecks step) := by
  rw [registry_next horderly.checked h]
  unfold lookedUp
  rw [hnone]

variable {key : Configuration} (hkey : s.lookup? step = some key)

include hkey

/-- A hit adds itself and the checks of the step. -/
theorem next_of_hit (hknown : key ∈ s.registry.keys) :
    (s.next step).registry = Registry.addChecks
      { s.registry with cache := { s.registry.cache with hits := s.registry.cache.hits + 1 } }
      (s.ownChecks step) := by
  rw [registry_next horderly.checked (invalidates_of_lookup? hkey)]
  unfold lookedUp
  rw [hkey]
  simp only
  rw [Registry.getResolved_hit hknown]

/-- A miss adds itself and one scan. If the directory is loaded, every file has been read and checked,
and the list is kept; if not, nothing is. -/
theorem next_of_miss (hnew : key ∉ s.registry.keys) :
    (∃ files partials,
      Registry.loaded s.provider key.directory key.extension key.options = .ok partials ∧
      s.provider.scan key.directory key.extension = .ok files ∧
      (s.next step).registry =
        ⟨s.registry.cache.missed.insert key partials,
          s.registry.work.plus ⟨1, files.length, files.length + s.ownChecks step⟩⟩) ∨
    ∃ e reads checks,
      Registry.loaded s.provider key.directory key.extension key.options = .error e ∧
      checks ≤ reads ∧
      (s.next step).registry =
        ⟨s.registry.cache.missed, s.registry.work.plus ⟨1, reads, checks + s.ownChecks step⟩⟩ := by
  rw [registry_next horderly.checked (invalidates_of_lookup? hkey)]
  unfold lookedUp
  rw [hkey]
  simp only
  rw [Registry.getResolved_miss hnew]
  -- the checks of the step itself are added to those of the load
  have hadd (cache : Cache) (reads checks : Nat) :
      Registry.addChecks ⟨cache, s.registry.work.plus ⟨1, reads, checks⟩⟩ (s.ownChecks step) =
        ⟨cache, s.registry.work.plus ⟨1, reads, checks + s.ownChecks step⟩⟩ := by
    unfold Registry.addChecks
    simp only
    rw [Work.plus_assoc]
    rfl
  rcases Registry.loadWork_cases with
    ⟨files, partials, hloaded, hscan, hwork⟩ | ⟨e, reads, checks, hfailed, hwork, hle⟩
  · rw [hloaded, hwork]
    exact .inl ⟨files, partials, rfl, hscan, hadd _ _ _⟩
  · rw [hfailed, hwork]
    exact .inr ⟨e, reads, checks, rfl, hle, hadd _ _ _⟩

end Step

/-- Every lookup is counted once, and every scan is that of a miss. -/
theorem counts_next {s : Session} (horderly : s.registry.Orderly) {step : Step}
    (h : s.invalidates step = false) :
    (s.next step).registry.counts.hits + (s.next step).registry.counts.misses =
        s.registry.counts.hits + s.registry.counts.misses + (s.lookup? step).toList.length ∧
      (s.next step).registry.work.scans + s.registry.counts.misses =
        s.registry.work.scans + (s.next step).registry.counts.misses := by
  unfold Registry.counts Cache.counts
  simp only
  cases hkey : s.lookup? step with
  | none =>
    rw [next_of_lookup?_eq_none horderly h hkey]
    exact ⟨rfl, rfl⟩
  | some key =>
    -- a hit adds one hit; a miss adds one miss and one scan
    by_cases hknown : key ∈ s.registry.keys
    · rw [next_of_hit horderly hkey hknown]
      simp only [Registry.addChecks, Work.plus, Option.toList_some, List.length_singleton]
      omega
    · obtain ⟨files, partials, -, -, hnext⟩ | ⟨e, reads, checks, -, -, hnext⟩ :=
        next_of_miss horderly hkey hknown
      · rw [hnext]
        simp only [Cache.missed, Cache.insert, Work.plus, Option.toList_some, List.length_singleton]
        omega
      · rw [hnext]
        simp only [Cache.missed, Work.plus, Option.toList_some, List.length_singleton]
        omega

/-! ## Whole runs -/

/-- A run keeps the registry in order, by induction on its steps. -/
theorem orderly_run {s : Session} (h : s.registry.Orderly) (steps : List Step) :
    (s.run steps).registry.Orderly := by
  induction steps generalizing s with
  | nil => exact h
  | cons step rest ih => exact ih (orderly_next h step)

/-- While nothing invalidates a registry, it keeps what could be loaded, and counts the lookups. -/
theorem run_of_quiet {s : Session} (horderly : s.registry.Orderly) {steps : List Step}
    (h : s.quiet steps = true) :
    (∀ key, key ∈ (s.run steps).registry.keys ↔ key ∈ s.registry.keys ∨ key ∈ s.loads steps) ∧
      (s.run steps).registry.counts.hits + (s.run steps).registry.counts.misses =
        s.registry.counts.hits + s.registry.counts.misses + (s.lookups steps).length := by
  induction steps generalizing s with
  | nil => exact ⟨fun key => by simp [run, loads], rfl⟩
  | cons step rest ih =>
    simp only [quiet, Bool.and_eq_true, Bool.not_eq_true'] at h
    -- the first step has done its part when the rest starts
    obtain ⟨hkeys, hcalls⟩ := ih (orderly_next horderly step) h.2
    constructor
    · intro key
      show key ∈ ((s.next step).run rest).registry.keys ↔ _
      rw [hkeys, mem_keys_next horderly h.1, loads, List.mem_append, Option.mem_toList, or_assoc,
        Option.mem_def]
    · have hstep := (counts_next horderly h.1).1
      rw [hstep] at hcalls
      rw [lookups, List.length_append, ← Nat.add_assoc]
      exact hcalls

/-- The scans are the misses, those of ended periods included. -/
theorem scans_run {s : Session} (horderly : s.registry.Orderly) (steps : List Step) :
    (s.run steps).registry.work.scans + s.registry.counts.misses =
      s.registry.work.scans + (s.endedMisses steps + (s.run steps).registry.counts.misses) := by
  induction steps generalizing s with
  | nil => simp [run, endedMisses]
  | cons step rest ih =>
    have hrest := ih (orderly_next horderly step)
    show ((s.next step).run rest).registry.work.scans + _ = _
    rw [endedMisses]
    -- invalidating drops the misses from the counts and keeps the scans in the work
    cases h : s.invalidates step with
    | true =>
      have hmisses : (s.next step).registry.counts.misses = 0 := by
        rw [registry_next_of_invalidates h]
        rfl
      have hscans : (s.next step).registry.work.scans = s.registry.work.scans := by
        rw [registry_next_of_invalidates h]
        rfl
      simp only [if_true]
      show _ = s.registry.work.scans + (_ + ((s.next step).run rest).registry.counts.misses)
      omega
    | false =>
      have hstep := (counts_next horderly h).2
      simp only [Bool.false_eq_true, if_false]
      show _ = s.registry.work.scans + (_ + ((s.next step).run rest).registry.counts.misses)
      omega

/-- The last period begins with an empty registry, holds no invalidation, and leads to the end. -/
theorem lastPeriod_spec {s : Session} {steps : List Step}
    (h : s.registry.cache = {} ∨ s.quiet steps = false) :
    (s.lastPeriod steps).1.registry.cache = {} ∧
      (s.lastPeriod steps).1.quiet (s.lastPeriod steps).2 = true ∧
      (s.lastPeriod steps).1.run (s.lastPeriod steps).2 = s.run steps := by
  induction steps generalizing s with
  | nil =>
    rcases h with h | h
    · exact ⟨h, rfl, rfl⟩
    · cases h
  | cons step rest ih =>
    rw [lastPeriod]
    cases hquiet : s.quiet (step :: rest) with
    | true =>
      rw [hquiet] at h
      rcases h with h | h
      · exact ⟨h, hquiet, rfl⟩
      · cases h
    | false =>
      -- this step invalidates the registry, or a later one does
      simp only [Bool.false_eq_true, if_false]
      refine ih ?_
      unfold quiet at hquiet
      cases hinvalidates : s.invalidates step with
      | true =>
        left
        rw [registry_next_of_invalidates hinvalidates]
        rfl
      | false =>
        rw [hinvalidates] at hquiet
        exact .inr hquiet

/-- What a further step adds to the counts, if these configurations are known. -/
structure StepCounts (s : Session) (known : List Configuration) : Prop where
  /-- An invalidation resets the counts of lookups and leaves those of work. -/
  invalidated : ∀ step, s.invalidates step = true →
    (s.next step).registry.counts = ⟨0, 0, 0⟩ ∧ (s.next step).registry.work = s.registry.work
  /-- Without a lookup there are the checks of the step. -/
  idle : ∀ step, s.invalidates step = false → s.lookup? step = none →
    (s.next step).registry.counts = s.registry.counts ∧
      (s.next step).registry.work = s.registry.work.plus ⟨0, 0, s.ownChecks step⟩
  /-- A hit scans nothing, reads nothing and checks no partial. -/
  hit : ∀ step key, s.lookup? step = some key → key ∈ known →
    (s.next step).registry.counts =
        { s.registry.counts with hits := s.registry.counts.hits + 1 } ∧
      (s.next step).registry.work = s.registry.work.plus ⟨0, 0, s.ownChecks step⟩
  /-- A miss that loads scans once, and reads and checks every file once. -/
  loaded : ∀ step key, s.lookup? step = some key → key ∉ known → ∀ partials,
    Registry.loaded s.provider key.directory key.extension key.options = .ok partials →
    ∃ files, s.provider.scan key.directory key.extension = .ok files ∧
      (s.next step).registry.counts = ⟨s.registry.counts.hits, s.registry.counts.misses + 1,
        s.registry.counts.entries + 1⟩ ∧
      (s.next step).registry.work =
        s.registry.work.plus ⟨1, files.length, files.length + s.ownChecks step⟩
  /-- A miss that fails scans once and keeps nothing. -/
  failed : ∀ step key, s.lookup? step = some key → key ∉ known → ∀ e,
    Registry.loaded s.provider key.directory key.extension key.options = .error e →
    (s.next step).registry.counts =
        { s.registry.counts with misses := s.registry.counts.misses + 1 } ∧
      ∃ reads checks, checks ≤ reads ∧ (s.next step).registry.work =
        s.registry.work.plus ⟨1, reads, checks + s.ownChecks step⟩
  /-- A target that is rejected is checked, and nothing else happens. -/
  rejected : ∀ plugin id code e, plugin.extension.matches? id.toList = true →
    checkTemplate id code plugin.options = .error e →
    (s.next (.transform plugin id code)).registry = s.registry.addChecks 1

/-- One field for each kind of step, with the keys listed in any order. -/
theorem stepCounts {s : Session} (horderly : s.registry.Orderly) {known : List Configuration}
    (hknown : ∀ key, key ∈ known ↔ key ∈ s.registry.keys) : StepCounts s known where
  invalidated step h := by
    rw [registry_next_of_invalidates h]
    exact ⟨rfl, rfl⟩
  idle step h hnone := by
    rw [next_of_lookup?_eq_none horderly h hnone]
    exact ⟨rfl, rfl⟩
  hit step key hkey hmem := by
    rw [next_of_hit horderly hkey ((hknown key).1 hmem)]
    exact ⟨rfl, rfl⟩
  loaded step key hkey hmem partials hloaded := by
    have hnew := mt (hknown key).2 hmem
    -- a load either succeeds or fails, and the hypothesis says which
    obtain ⟨files, partials', -, hscan, hnext⟩ | ⟨e, reads, checks, hfailed, -, -⟩ :=
      next_of_miss horderly hkey hnew
    · refine ⟨files, hscan, ?_, by rw [hnext]⟩
      rw [hnext]
      unfold Registry.counts Cache.counts
      simp only
      rw [Registry.entries_missed_insert partials' hnew]
      rfl
    · rw [hfailed] at hloaded
      cases hloaded
  failed step key hkey hmem e hfailed := by
    obtain ⟨files, partials, hloaded, -, -⟩ | ⟨e', reads, checks, -, hle, hnext⟩ :=
      next_of_miss horderly hkey (mt (hknown key).2 hmem)
    · rw [hfailed] at hloaded
      cases hloaded
    · rw [hnext]
      exact ⟨rfl, reads, checks, hle, rfl⟩
  rejected plugin id code e hmatches hrejected := by
    show (Plugin.transform _ _ id code).2.registry = _
    rw [registry_transform]
    simp only [hmatches, if_true, hrejected]
    rfl

/-- **The counts of a registry.** After any run from a new registry:

* hits and misses are together the lookups since the last invalidation;
* the entries are as many as there are different configurations that were looked up since then and
  could be loaded, and no more than the misses;
* the scans are the misses of all periods between invalidations;
* and a further step adds what `StepCounts` says. -/
theorem accounting (provider : TemplateProvider) (steps : List Step) :
    let start : Session := { provider }
    let s := start.run steps
    let period := start.lastPeriod steps
    let known := period.1.loads period.2
    s.registry.counts.hits + s.registry.counts.misses = (period.1.lookups period.2).length ∧
    s.registry.counts.entries = known.dedup.length ∧
    s.registry.counts.entries ≤ s.registry.counts.misses ∧
    s.registry.work.scans = start.endedMisses steps + s.registry.counts.misses ∧
    StepCounts s known := by
  intro start s period known
  have hstart : start.registry.Orderly := Registry.orderly_of_cache_eq rfl
  have horderly : s.registry.Orderly := orderly_run hstart steps
  -- all but the scans are counted since the last time the registry was emptied
  obtain ⟨hempty, hquiet, hrun⟩ : period.1.registry.cache = {} ∧ period.1.quiet period.2 = true ∧
      period.1.run period.2 = s := lastPeriod_spec (.inl rfl)
  obtain ⟨hkeys, hcalls⟩ := run_of_quiet (Registry.orderly_of_cache_eq hempty) hquiet
  rw [hrun] at hkeys hcalls
  have hknown : ∀ key, key ∈ known ↔ key ∈ s.registry.keys := by
    intro key
    rw [hkeys key]
    unfold Registry.keys
    rw [hempty]
    simp [known, period]
  refine ⟨?_, ?_, horderly.bounded, ?_, stepCounts horderly hknown⟩
  · rw [hcalls]
    unfold Registry.counts
    rw [hempty]
    simp [Cache.counts, period]
  · have hperm : s.registry.keys.Perm known.dedup :=
      (List.perm_ext_iff_of_nodup horderly.nodup known.nodup_dedup).2 fun key => by
        rw [List.mem_dedup, hknown]
    have hlength := hperm.length_eq
    unfold Registry.keys at hlength
    rw [List.length_map] at hlength
    exact hlength
  · have hscans := scans_run hstart steps
    simpa [start, Registry.counts, Cache.counts] using hscans

end Accounting

end Stencil
