import Stencil.Proofs.Partials.Origin

/-!
# Lists of accepted partials

A registry hands out no partial whose source was not accepted: loading checks every file, and only
lists that were loaded are kept (`Checked`, `Checked.get`). So the partials of a list that is found
can all be registered, whatever registry it came from.
-/

namespace Stencil

def PartialList.Accepted (partials : PartialList) : Prop :=
  ∀ entry ∈ partials.entries, ∃ document, Template.Document.ofSource entry.2.source = .ok document

namespace Registry

/-- A load checks each file before it lists it. -/
theorem accepted_of_loaded {provider : TemplateProvider} {base : Path} {ext : Extension}
    {options : CompileOptions} {partials : PartialList}
    (h : loaded provider base ext options = .ok partials) : partials.Accepted := by
  intro entry hentry
  obtain ⟨files, -, hfiles⟩ := (loaded_eq_ok_iff ..).1 h
  obtain ⟨file, -, hfile⟩ := exists_mem_of_forall₂ hfiles hentry
  exact (checkTemplate_eq_ok_iff.1 ((loadedFile_eq_ok_iff ..).1 hfile).2.2).1

/-- Every list that is kept has accepted sources only. -/
def Checked (registry : Registry) : Prop :=
  ∀ key partials, registry.cached key = some partials → partials.Accepted

/-- A registry that has cached nothing has nothing unchecked to serve. -/
theorem checked_of_nothing_cached {registry : Registry}
    (h : ∀ key, registry.cached key = none) : registry.Checked := by
  intro key partials hcached
  rw [h] at hcached
  cases hcached

/-- What is cached in a current registry came from a load. -/
theorem Current.checked {registry : Registry} {provider : TemplateProvider}
    (h : registry.Current provider) : registry.Checked := fun key partials hcached =>
  accepted_of_loaded (h key partials hcached)

/-- A request keeps a registry checked, since what it caches is a load. -/
theorem Checked.get {registry : Registry} (h : registry.Checked) (provider : TemplateProvider)
    (ext : Extension) (dir : Option Path) (options : CompileOptions) :
    (registry.get provider ext dir options).2.Checked :=
  kept_get h (fun _ _ => accepted_of_loaded) dir

theorem Checked.getResolved {registry : Registry} (h : registry.Checked)
    (provider : TemplateProvider) (ext : Extension) (base : Path) (options : CompileOptions) :
    (registry.getResolved provider ext base options).2.Checked := by
  intro key partials hcached
  rw [cached_getResolved] at hcached
  split at hcached
  · exact answer_getResolved h (fun _ _ => accepted_of_loaded) (toOption_eq_some_iff.1 hcached)
  · exact h key partials hcached

/-- Whatever a checked registry answers has passed the check. -/
theorem Checked.accepted {registry : Registry} (h : registry.Checked) {provider : TemplateProvider}
    {ext : Extension} {dir : Option Path} {options : CompileOptions} {partials : PartialList}
    (hget : (registry.get provider ext dir options).1 = .ok partials) : partials.Accepted := by
  have haccepted : partials = {} ∨ ∃ _ : Path, partials.Accepted :=
    answer_get h (fun _ _ => accepted_of_loaded) hget
  obtain rfl | ⟨-, haccepted⟩ := haccepted
  · intro entry hentry
    cases hentry
  · exact haccepted

end Registry

end Stencil
