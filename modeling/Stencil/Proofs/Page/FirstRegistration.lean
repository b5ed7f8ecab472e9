import Mathlib.Logic.Function.Basic
import Stencil.Proofs.Page.Rendering

/-!
# The first registration wins

Runs of one page renderer with any number of registries. A rendering may ask for anything and end in
any way; between renderings the registries are used and invalidated, and every step finds other files.
What such a run offers for registration is read off the run itself: the partials that a rendering
found, and its helpers (`offers`).

* **`source?_next`**, **`helper?_next`**: a step binds what it offers behind what was bound before.
* **`source?_run`**, **`helper?_run`**: by induction, a run binds what its steps offer, the first of
  a name before the later ones.
* **`first_registration_wins`**: nothing else is ever bound, and what is bound stays bound.
-/

namespace Stencil.PageRenderer

/-- A step of a run: a rendering with one of the registries, or something else that is done with a
registry. -/
inductive Step where
  | render (registry : Nat) (provider : TemplateProvider) (context : Option PageData)
      (request : PageRequest)
  | get (registry : Nat) (provider : TemplateProvider) (ext : Extension) (dir : Option Path)
      (options : CompileOptions)
  | invalidate (registry : Nat)

/-- A renderer, and registries by number. -/
structure Session where
  renderer : PageRenderer := {}
  registries : Nat → Registry := fun _ => {}

/-- What a rendering offers for registration: the partials that it found, and its helpers. -/
structure Offer where
  partials : PartialList
  helpers : List (String × Render.HelperFunction)

namespace Session

def next (s : Session) : Step → Session
  | .render i provider context request =>
    let outcome := s.renderer.render (s.registries i) provider context request
    { renderer := outcome.renderer
      registries := Function.update s.registries i outcome.registry }
  | .get i provider ext dir options =>
    let got := ((s.registries i).get provider ext dir options).2
    { s with registries := Function.update s.registries i got }
  | .invalidate i =>
    { s with registries := Function.update s.registries i (s.registries i).invalidate }

def run (s : Session) (steps : List Step) : Session := steps.foldl next s

theorem run_append (s : Session) (before after : List Step) :
    s.run (before ++ after) = (s.run before).run after := List.foldl_append

/-- What a step offers; nothing, unless it is a rendering whose partials are found. -/
def offer? (s : Session) : Step → Option Offer
  | .render i provider _ request =>
    ((s.registries i).get provider request.extension request.directory
      request.options).1.toOption.map fun partials => ⟨partials, request.helpers⟩
  | _ => none

def offers (s : Session) : List Step → List Offer
  | [] => []
  | step :: rest => (s.offer? step).toList ++ offers (s.next step) rest

/-- The renderer knows the names of its helpers, and the registries keep accepted partials only. -/
structure Sound (s : Session) : Prop where
  inStep : s.renderer.InStep
  checked : ∀ i, (s.registries i).Checked

/-- A session starts with nothing registered and nothing served. -/
theorem sound_new : Sound {} :=
  ⟨inStep_new, fun _ => Registry.checked_of_nothing_cached Registry.cached_empty⟩

/-! ## One step -/

/-- A rendering offers nothing and leaves the renderer as it is, or it offers partials that are
accepted. -/
theorem Sound.render_cases {s : Session} (h : s.Sound) (i : Nat) (provider : TemplateProvider)
    (context : Option PageData) (request : PageRequest) :
    (s.offer? (.render i provider context request) = none ∧
      (s.next (.render i provider context request)).renderer = s.renderer) ∨
    ∃ partials, s.offer? (.render i provider context request) = some ⟨partials, request.helpers⟩ ∧
      partials.Accepted ∧ ((s.registries i).get provider request.extension request.directory
        request.options).1 = .ok partials := by
  cases hget : ((s.registries i).get provider request.extension request.directory
    request.options).1 with
  | error e =>
    -- a page that finds no partials offers nothing and registers nothing
    refine .inl ⟨?_, congrArg PageOutcome.renderer (render_of_not_found hget)⟩
    unfold offer?
    simp only [hget]
    rfl
  | ok partials =>
    refine .inr ⟨partials, ?_, (h.checked i).accepted hget, rfl⟩
    unfold offer?
    simp only [hget]
    rfl

/-- Whatever renderer they are used with, registries go on keeping accepted partials only. -/
theorem checked_next {s : Session} (h : ∀ i, (s.registries i).Checked) (step : Step) (i : Nat) :
    ((s.next step).registries i).Checked := by
  -- one registry is another one than before
  have updated {j : Nat} {registry : Registry} (hregistry : registry.Checked) :
      (Function.update s.registries j registry i).Checked := by
    by_cases hi : i = j
    · rw [hi, Function.update_self]
      exact hregistry
    · rw [Function.update_of_ne hi]
      exact h i
  cases step with
  | render j provider context request =>
    refine updated ?_
    have hgot := (h j).get provider request.extension request.directory request.options
    -- checking the page keeps no list and drops none
    obtain hleft | hleft := render_registry s.renderer (s.registries j) provider context request
    · rw [hleft]
      exact hgot
    · rw [hleft]
      exact hgot
  | get j provider ext dir options => exact updated ((h j).get provider ext dir options)
  | invalidate j =>
    exact updated (Registry.checked_of_nothing_cached Registry.cached_invalidate)

/-- Every step keeps the session sound. -/
theorem Sound.next {s : Session} (h : s.Sound) (step : Step) : (s.next step).Sound := by
  refine ⟨?_, checked_next h.checked step⟩
  cases step with
  | render i provider context request =>
    obtain ⟨-, hsame⟩ | ⟨partials, -, haccepted, hget⟩ :=
      h.render_cases i provider context request
    · rw [hsame]
      exact h.inStep
    · exact inStep_render context haccepted hget h.inStep
  | get i provider ext dir options => exact h.inStep
  | invalidate i => exact h.inStep

/-- A step binds the partials that it offers behind those that were bound before. -/
theorem Sound.source?_next {s : Session} (h : s.Sound) (step : Step) (name : String) :
    (s.next step).renderer.engine.source? name = (s.renderer.engine.source? name).or
      ((s.offer? step).bind fun offer =>
        (offer.partials.get? name).map CheckedTemplate.source) := by
  cases step with
  | render i provider context request =>
    obtain ⟨hnone, hsame⟩ | ⟨partials, hoffer, haccepted, hget⟩ :=
      h.render_cases i provider context request
    · rw [hnone, hsame]
      exact Option.or_none.symm
    · rw [hoffer]
      exact source?_render context haccepted hget name
  -- steps that do not render offer nothing
  | get i provider ext dir options => exact Option.or_none.symm
  | invalidate i => exact Option.or_none.symm

/-- A step binds the helpers that it offers behind those that were bound before. -/
theorem Sound.helper?_next {s : Session} (h : s.Sound) (step : Step) (name : String) :
    (s.next step).renderer.engine.helper? name = (s.renderer.engine.helper? name).or
      ((s.offer? step).bind fun offer => (offer.helpers.lookup name).map (.site name)) := by
  cases step with
  | render i provider context request =>
    obtain ⟨hnone, hsame⟩ | ⟨partials, hoffer, haccepted, hget⟩ :=
      h.render_cases i provider context request
    · rw [hnone, hsame]
      exact Option.or_none.symm
    · rw [hoffer]
      exact helper?_render context haccepted hget h.inStep name
  | get i provider ext dir options => exact Option.or_none.symm
  | invalidate i => exact Option.or_none.symm

/-! ## Whole runs -/

/-- Registries of a session serve checked templates only, however long it goes on. -/
theorem checked_run {s : Session} (h : ∀ i, (s.registries i).Checked) (steps : List Step) (i : Nat) :
    ((s.run steps).registries i).Checked := by
  induction steps generalizing s with
  | nil => exact h i
  | cons step rest ih => exact ih (checked_next h step)

/-- A run from a sound session is sound, by induction on its steps. -/
theorem Sound.run {s : Session} (h : s.Sound) (steps : List Step) : (s.run steps).Sound := by
  induction steps generalizing s with
  | nil => exact h
  | cons step rest ih => exact ih (h.next step)

/-- The first that steps offer is offered by the first step, or else by those behind it. -/
theorem findSome?_offers_cons {α : Type} (s : Session) (step : Step) (rest : List Step)
    (f : Offer → Option α) :
    (s.offers (step :: rest)).findSome? f =
      ((s.offer? step).bind f).or (((s.next step).offers rest).findSome? f) := by
  show ((s.offer? step).toList ++ (s.next step).offers rest).findSome? f = _
  rw [List.findSome?_append]
  cases s.offer? step with
  | none => rfl
  | some offer => cases hf : f offer <;> simp [hf]

/-- Over a run, a source that is bound stays, and otherwise the first offer of the name binds it. -/
theorem Sound.source?_run {s : Session} (h : s.Sound) (steps : List Step) (name : String) :
    (s.run steps).renderer.engine.source? name = (s.renderer.engine.source? name).or
      ((s.offers steps).findSome? fun offer =>
        (offer.partials.get? name).map CheckedTemplate.source) := by
  induction steps generalizing s with
  | nil => exact Option.or_none.symm
  | cons step rest ih =>
    show ((s.next step).run rest).renderer.engine.source? name = _
    rw [ih (h.next step), h.source?_next, findSome?_offers_cons, Option.or_assoc]

/-- Likewise for helpers: one that is bound stays, and otherwise the first offer binds it. -/
theorem Sound.helper?_run {s : Session} (h : s.Sound) (steps : List Step) (name : String) :
    (s.run steps).renderer.engine.helper? name = (s.renderer.engine.helper? name).or
      ((s.offers steps).findSome? fun offer =>
        (offer.helpers.lookup name).map (.site name)) := by
  induction steps generalizing s with
  | nil => exact Option.or_none.symm
  | cons step rest ih =>
    show ((s.next step).run rest).renderer.engine.helper? name = _
    rw [ih (h.next step), h.helper?_next, findSome?_offers_cons, Option.or_assoc]

end Session

open Session

/-- **The first registration wins.** After any run of a new renderer:

* a name is bound to a partial exactly if it is in a list that some rendering found, and then to the
  source of the first entry of the name in the first such list;
* a name is bound to a helper exactly if it is that of a built-in one, which it is bound to, or it
  was offered by a rendering whose partials were found, and then to the helper that was offered
  first; the names that the renderer knows are just these;
* whatever comes later, no binding is changed or lost.

So nothing else is ever bound, the name that pages are checked under included. -/
theorem first_registration_wins (steps : List Step) :
    let now := run {} steps
    let offered := offers {} steps
    (∀ name,
      now.renderer.engine.source? name =
        offered.findSome? (fun offer =>
          (offer.partials.get? name).map CheckedTemplate.source) ∧
      (now.renderer.hasPartial name = true ↔
        ∃ offer ∈ offered, name ∈ offer.partials.names)) ∧
    (∀ name,
      now.renderer.engine.helper? name =
        ((Render.Builtin.named? name).map Render.Helper.builtin).or
          ((offered.findSome? fun offer => offer.helpers.lookup name).map (.site name)) ∧
      (now.renderer.hasHelper name = true ↔ Render.isBuiltin name = true ∨
        ∃ offer ∈ offered, name ∈ offer.helpers.map Prod.fst) ∧
      now.renderer.hasHelper name = (now.renderer.engine.helper? name).isSome) ∧
    ∀ later name,
      (∀ source, now.renderer.engine.source? name = some source →
        (run {} (steps ++ later)).renderer.engine.source? name = some source) ∧
      (∀ helper, now.renderer.engine.helper? name = some helper →
        (run {} (steps ++ later)).renderer.engine.helper? name = some helper) := by
  intro now offered
  have hsound : now.Sound := sound_new.run steps
  have hsource (name : String) : now.renderer.engine.source? name = offered.findSome? fun offer =>
      (offer.partials.get? name).map CheckedTemplate.source := by
    rw [sound_new.source?_run]
    rfl
  have hhelper (name : String) : now.renderer.engine.helper? name =
      ((Render.Builtin.named? name).map Render.Helper.builtin).or
        ((offered.findSome? fun offer => offer.helpers.lookup name).map (.site name)) := by
    rw [sound_new.helper?_run, Engine.helper?_new, List.map_findSome?]
    rfl
  refine ⟨fun name => ⟨hsource name, ?_⟩, fun name => ⟨hhelper name, ?_, hsound.inStep name⟩,
    fun later name => ⟨fun source hbound => ?_, fun helper hbound => ?_⟩⟩
  · -- a partial is registered if a list on offer has its name
    show now.renderer.engine.hasPartial name = true ↔ _
    rw [Engine.hasPartial_eq_isSome, hsource, List.findSome?_isSome_iff]
    refine exists_congr fun offer => and_congr_right fun _ => ?_
    rw [Option.isSome_map, PartialList.mem_names_iff]
  · rw [hsound.inStep name, hhelper, Option.isSome_or, Option.isSome_map, Option.isSome_map,
      Bool.or_eq_true, List.findSome?_isSome_iff]
    refine or_congr Iff.rfl (exists_congr fun offer => and_congr_right fun _ => ?_)
    rw [isSome_lookup_iff]
  · -- what is bound already comes ahead of what later steps offer
    rw [run_append, hsound.source?_run, hbound]
    rfl
  · rw [run_append, hsound.helper?_run, hbound]
    rfl

end Stencil.PageRenderer
