import Mathlib.Data.List.Induction
import Stencil.Proofs.Partials.Origin

/-!
# The registry is a memo table

Runs of a registry: calls of `get` and `invalidate` in any order, and changes of the files in
between. The table that the registry stands for is read off the run itself. It remembers a list for
a configuration if some call gave this list for it since the last invalidation (`Remembered`).

* **`cached_run`**: after every run the cache holds exactly what is remembered. This is the
  invariant, by induction on the run from its end.
* **`loaded_of_cached`**: what the cache holds was loaded at some moment of the run.
* **`get_refines_memo_table`**: a call answers with the list that is remembered for its
  configuration, and otherwise as loading the present files does.
-/

namespace Stencil.Registry

/-- A step of a run: a call of the registry, or a change of the files. -/
inductive Step where
  | get (ext : Extension) (dir : Option Path) (options : CompileOptions)
  | invalidate
  | change (files : FileSystem)

/-- A registry, and the files that it finds. -/
structure Session where
  registry : Registry := {}
  files : FileSystem

namespace Session

def answer (s : Session) (ext : Extension) (dir : Option Path) (options : CompileOptions) :
    Except Error PartialList :=
  (s.registry.get s.files.provider ext dir options).1

def next (s : Session) : Step → Session
  | .get ext dir options =>
    { s with registry := (s.registry.get s.files.provider ext dir options).2 }
  | .invalidate => { s with registry := s.registry.invalidate }
  | .change files => { s with files }

def run (files : FileSystem) (steps : List Step) : Session := steps.foldl next { files }

/-- A run is extended at its end, which is what the induction goes over. -/
theorem run_append_singleton (files : FileSystem) (steps : List Step) (step : Step) :
    run files (steps ++ [step]) = (run files steps).next step := by
  unfold run
  rw [List.foldl_append]
  rfl

/-- A step is a call that gives this list for the configuration, however it spells the directory. -/
def Gives (s : Session) (step : Step) (key : Configuration) (partials : PartialList) : Prop :=
  ∃ dir, step = .get key.extension (some dir) key.options ∧
    resolvePath s.files.currentPath dir = .ok key.directory ∧
    s.answer key.extension (some dir) key.options = .ok partials

end Session

open Session

/-- Some step gave this list for the configuration, and no later one invalidated the registry. -/
def Remembered (files : FileSystem) (steps : List Step) (key : Configuration)
    (partials : PartialList) : Prop :=
  ∃ before step after, steps = before ++ step :: after ∧ .invalidate ∉ after ∧
    (run files before).Gives step key partials

/-! ## One more step -/

variable {files : FileSystem} {steps : List Step} {key : Configuration} {partials : PartialList}

/-- Invalidating answers no request. -/
theorem Session.Gives.ne_invalidate {s : Session} {step : Step} (h : s.Gives step key partials) :
    step ≠ .invalidate := by
  obtain ⟨dir, rfl, -⟩ := h
  intro hstep
  cases hstep

/-- Nothing is remembered before the first step. -/
theorem not_remembered_nil : ¬ Remembered files [] key partials := by
  rintro ⟨before, step, after, hsteps, -⟩
  cases before <;> cases hsteps

/-- After one more step that is remembered which was before, unless the step invalidates, and what
the step gave. -/
theorem remembered_append_singleton {step : Step} :
    Remembered files (steps ++ [step]) key partials ↔
      step ≠ .invalidate ∧
        (Remembered files steps key partials ∨ (run files steps).Gives step key partials) := by
  constructor
  · rintro ⟨before, given, after, hsteps, hvalid, hgives⟩
    -- the step that gave the list is the last one, or else stands before it
    rcases List.eq_nil_or_concat after with rfl | ⟨after, last, rfl⟩
    · obtain ⟨rfl, hstep⟩ := List.append_inj' hsteps rfl
      have hstep : step = given := List.singleton_inj.1 hstep
      subst hstep
      exact ⟨hgives.ne_invalidate, Or.inr hgives⟩
    · have hsplit : steps ++ [step] = (before ++ given :: after) ++ [last] := by
        rw [hsteps]
        simp
      obtain ⟨rfl, hlast⟩ := List.append_inj' hsplit rfl
      have hlast : step = last := List.singleton_inj.1 hlast
      subst hlast
      rw [List.concat_eq_append, List.mem_append, not_or] at hvalid
      refine ⟨fun h => hvalid.2 (List.mem_singleton.2 h.symm), Or.inl ?_⟩
      exact ⟨before, given, after, rfl, hvalid.1, hgives⟩
  · rintro ⟨hstep, ⟨before, given, after, rfl, hvalid, hgives⟩ | hgives⟩
    · refine ⟨before, given, after ++ [step], by simp, ?_, hgives⟩
      rw [List.mem_append, not_or]
      exact ⟨hvalid, fun h => hstep (List.mem_singleton.1 h).symm⟩
    · exact ⟨steps, step, [], rfl, List.not_mem_nil, hgives⟩

/-- After a step the cache holds what it held before, unless the step invalidates, and what the step
gave. -/
theorem cached_next (s : Session) (step : Step) :
    (s.next step).registry.cached key = some partials ↔
      step ≠ .invalidate ∧
        (s.registry.cached key = some partials ∨ s.Gives step key partials) := by
  -- most steps give nothing and leave the cache as it is
  have unchanged (hstep : step ≠ .invalidate) (hgives : ¬ s.Gives step key partials)
      (hnext : (s.next step).registry.cached key = s.registry.cached key) :
      (s.next step).registry.cached key = some partials ↔ step ≠ .invalidate ∧
        (s.registry.cached key = some partials ∨ s.Gives step key partials) := by
    rw [hnext, or_iff_left hgives, and_iff_right hstep]
  cases step with
  | invalidate =>
    constructor
    · intro h
      cases h
    · exact fun h => absurd rfl h.1
  | change files =>
    refine unchanged (by simp) ?_ rfl
    rintro ⟨dir, hstep, -⟩
    cases hstep
  | get ext dir options =>
    cases dir with
    | none =>
      refine unchanged (by simp) ?_ rfl
      rintro ⟨dir, hstep, -⟩
      cases hstep
    | some dir =>
      cases hresolve : resolvePath s.files.currentPath dir with
      | error e =>
        refine unchanged (by simp) ?_ ?_
        · rintro ⟨dir', hstep, hdir, -⟩
          cases hstep
          rw [hresolve] at hdir
          cases hdir
        · unfold next
          simp only
          rw [get_of_not_resolve hresolve]
      | ok base =>
        have hget : s.registry.get s.files.provider ext (some dir) options =
            s.registry.getResolved s.files.provider ext base options := get_of_resolve hresolve
        have hcached : (s.next (.get ext (some dir) options)).registry.cached key =
            if key = ⟨ext, base, options⟩ then (s.answer ext (some dir) options).toOption
            else s.registry.cached key := by
          unfold next answer
          simp only
          rw [hget, cached_getResolved]
        -- the answer is kept for the configuration of the call, and for no other
        by_cases hkey : key = ⟨ext, base, options⟩
        · subst hkey
          rw [hcached, if_pos rfl, toOption_eq_some_iff]
          constructor
          · exact fun h => ⟨by simp, Or.inr ⟨dir, rfl, hresolve, h⟩⟩
          · rintro ⟨-, h | ⟨dir', hstep, -, hanswer⟩⟩
            · unfold answer
              rw [hget, getResolved_fst, h]
            · cases hstep
              exact hanswer
        · refine unchanged (by simp) ?_ (by rw [hcached, if_neg hkey])
          rintro ⟨dir', hstep, hdir, -⟩
          cases hstep
          rw [hresolve] at hdir
          cases hdir
          exact hkey rfl

/-! ## Whole runs -/

/-- The cache holds exactly what is remembered. -/
theorem cached_run (files : FileSystem) (steps : List Step) (key : Configuration)
    (partials : PartialList) :
    (run files steps).registry.cached key = some partials ↔
      Remembered files steps key partials := by
  induction steps using List.reverseRecOn with
  | nil =>
    constructor
    · intro h
      cases h
    · exact fun h => absurd h not_remembered_nil
  | append_singleton steps step ih =>
    rw [run_append_singleton, cached_next, remembered_append_singleton, ih]

/-- A call answers with the list that is kept, or else as loading does. -/
theorem answer_of_resolve (s : Session) {ext : Extension} {dir base : Path}
    {options : CompileOptions} (hdir : resolvePath s.files.currentPath dir = .ok base) :
    s.answer ext (some dir) options =
      match s.registry.cached ⟨ext, base, options⟩ with
      | some partials => .ok partials
      | none => loaded s.files.provider base ext options := by
  unfold answer
  rw [get_of_resolve hdir]
  exact getResolved_fst

/-- What the cache holds was loaded at some moment of the run. -/
theorem loaded_of_cached (files : FileSystem) (steps : List Step) {key : Configuration}
    {partials : PartialList} (h : (run files steps).registry.cached key = some partials) :
    ∃ earlier, earlier <+: steps ∧
      loaded (run files earlier).files.provider key.directory key.extension key.options =
        .ok partials := by
  induction steps using List.reverseRecOn generalizing key partials with
  | nil => cases h
  | append_singleton steps step ih =>
    have earlier (h : (run files steps).registry.cached key = some partials) :
        ∃ earlier, earlier <+: steps ++ [step] ∧
          loaded (run files earlier).files.provider key.directory key.extension key.options =
            .ok partials := by
      obtain ⟨before, hbefore, hloaded⟩ := ih h
      exact ⟨before, hbefore.trans (List.prefix_append steps [step]), hloaded⟩
    rw [run_append_singleton, cached_next] at h
    -- a list that the last step gave was loaded by it, or it was in the cache already
    obtain ⟨-, h | ⟨dir, -, hdir, hanswer⟩⟩ := h
    · exact earlier h
    · rw [answer_of_resolve _ hdir] at hanswer
      cases hcached : (run files steps).registry.cached key with
      | none =>
        rw [hcached] at hanswer
        exact ⟨steps, List.prefix_append steps [step], hanswer⟩
      | some kept =>
        rw [hcached] at hanswer
        cases hanswer
        exact earlier hcached

/-- **A registry is a memo table.** After any run, a call whose directory resolves answers with the
list that is remembered for its configuration. If none is, it answers as loading the present files
does, also with an error. A list that is answered was loaded for this very configuration: its
templates carry the options that were asked for and are files below the directory that end with the
extension. Without a directory the answer is empty, and nothing changes. -/
theorem get_refines_memo_table (files : FileSystem) (steps : List Step) (ext : Extension)
    (options : CompileOptions) :
    (∀ dir base, resolvePath (run files steps).files.currentPath dir = .ok base →
      (∀ partials, Remembered files steps ⟨ext, base, options⟩ partials →
        (run files steps).answer ext (some dir) options = .ok partials) ∧
      ((∀ partials, ¬ Remembered files steps ⟨ext, base, options⟩ partials) →
        (run files steps).answer ext (some dir) options =
          loaded (run files steps).files.provider base ext options) ∧
      (∀ partials, (run files steps).answer ext (some dir) options = .ok partials →
        ∃ earlier, earlier <+: steps ∧
          loaded (run files earlier).files.provider base ext options = .ok partials ∧
          ∀ entry ∈ partials.entries, entry.2.options = options ∧ ∃ file,
            (run files earlier).files.HoldsPartial base ext entry.1 entry.2.source file)) ∧
    (run files steps).answer ext none options = .ok {} ∧
    (run files steps).next (.get ext none options) = run files steps := by
  refine ⟨fun dir base hdir => ⟨fun partials h => ?_, fun h => ?_, fun partials h => ?_⟩, rfl, rfl⟩
  · rw [answer_of_resolve _ hdir, (cached_run ..).2 h]
  · have hcached : (run files steps).registry.cached ⟨ext, base, options⟩ = none := by
      rw [Option.eq_none_iff_forall_not_mem]
      exact fun partials hpartials => h partials ((cached_run ..).1 hpartials)
    rw [answer_of_resolve _ hdir, hcached]
  · -- what was cached was loaded by an earlier step, and what was not is loaded now
    have hloaded : ∃ earlier, earlier <+: steps ∧
        loaded (run files earlier).files.provider base ext options = .ok partials := by
      rw [answer_of_resolve _ hdir] at h
      cases hcached : (run files steps).registry.cached ⟨ext, base, options⟩ with
      | none =>
        rw [hcached] at h
        exact ⟨steps, List.prefix_rfl, h⟩
      | some kept =>
        rw [hcached] at h
        cases h
        have hearlier := loaded_of_cached files steps hcached
        exact hearlier
    obtain ⟨earlier, hearlier, hloaded⟩ := hloaded
    exact ⟨earlier, hearlier, hloaded, FileSystem.holdsPartial_of_loaded hloaded⟩

/-- A site whose only template, `/site/a.hbs`, has this text; without a text there is none. -/
def siteWith (text : Option String) : FileSystem where
  root := .directory [("site".toList, .directory
    (text.toList.map fun text => ("a.hbs".toList, .file (.text text))))]
  current := []

/-- The template is found in a directory that is spelled otherwise after the file is gone, and no
longer once the registry has been invalidated. -/
theorem answer_of_changed_site :
    (run (siteWith (some "x")) [.get .standard (some "/site".toList) {},
        .change (siteWith none)]).answer .standard (some "/new/.././site/".toList) {} =
      .ok ⟨[("a", ⟨"x", {}⟩)]⟩ ∧
    (run (siteWith (some "x")) [.get .standard (some "/site".toList) {}, .change (siteWith none),
        .invalidate]).answer .standard (some "site".toList) {} = .ok {} ∧
    ∃ earlier, earlier <+: ([] : List Step) ∧
      loaded (run (siteWith (some "x")) earlier).files.provider "/site".toList .standard {} =
        .ok ⟨[("a", ⟨"x", {}⟩)]⟩ := by
  refine ⟨?_, ?_, ?_⟩
  · -- asked for before the change, so remembered in spite of it
    refine ((get_refines_memo_table (siteWith (some "x")) _ .standard {}).1
      _ "/site".toList rfl).1 _ ?_
    exact ⟨[], _, [.change (siteWith none)], rfl, by simp, "/site".toList, rfl, rfl, rfl⟩
  · -- forgotten, so loaded from the changed files
    refine (((get_refines_memo_table (siteWith (some "x")) _ .standard {}).1
      _ "/site".toList rfl).2.1 fun partials hpartials => ?_).trans rfl
    have hcached := (cached_run ..).2 hpartials
    cases hcached
  · obtain ⟨earlier, hearlier, hloaded, -⟩ :=
      ((get_refines_memo_table (siteWith (some "x")) [] .standard {}).1
        "/site".toList "/site".toList rfl).2.2 ⟨[("a", ⟨"x", {}⟩)]⟩ rfl
    exact ⟨earlier, hearlier, hloaded⟩

end Stencil.Registry
