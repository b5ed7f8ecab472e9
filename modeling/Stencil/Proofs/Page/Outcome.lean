import Stencil.Proofs.Page.Partials

/-!
# How a rendering ends

A rendering looks its partials up first. If they are not found, this is all (`render_of_not_found`).
Else it takes its steps in a fixed order, and the first one that fails ends it: `Ends` has a case for
every way to end, with all that is left then, and every rendering whose partials are found ends in
one of them (`ends_render`). What holds however it ends is read off these cases.
-/

namespace Stencil

namespace Engine

@[simp] theorem countCalls_nil (engine : Engine) : engine.countCalls [] = engine := by
  unfold countCalls
  simp

/-- Rendering counts calls, and nothing else is left of it. -/
theorem render_snd (engine : Engine) (source : String) (data : Json) :
    ∃ calls, (engine.render source data).engine = engine.countCalls calls := by
  unfold render
  cases Template.Document.ofSource source with
  | error rejection => exact ⟨[], engine.countCalls_nil.symm⟩
  | ok document => exact ⟨_, rfl⟩

end Engine

/-- Producing data counts the production, and does not change where the data comes from. -/
theorem PageData.origin_resolve? (context : Option PageData) :
    (resolve? context).2.map origin = context.map origin := by
  cases context with
  | none => rfl
  | some context =>
    unfold resolve? resolve
    cases h : context.origin <;> simp [h]

namespace PageRenderer

/-- The ways in which a rendering can end that has found these partials and left the registry so. -/
inductive Ends (renderer : PageRenderer) (registry : Registry) (context : Option PageData)
    (request : PageRequest) (partials : PartialList) : PageOutcome → Prop
  | notRegistered {e : Error} {engine : Engine}
      (hregister : registerPartials (renderer.engine.configure request.options)
        partials.entries = (.error e, engine)) :
      Ends renderer registry context request partials
        ⟨.error e, { renderer with engine }, registry, context, []⟩
  | noData {cause : String} {context' : Option PageData}
      (hregister : (registerPartials (renderer.engine.configure request.options)
        partials.entries).1 = .ok ())
      (hdata : PageData.resolve? context = (.error cause, context')) :
      Ends renderer registry context request partials
        ⟨.error (.contextResolution cause), renderer.registered partials request, registry,
          context', []⟩
  | notAccepted {data : Json} {context' : Option PageData} {e : Error}
      (hregister : (registerPartials (renderer.engine.configure request.options)
        partials.entries).1 = .ok ())
      (hdata : PageData.resolve? context = (.ok data, context'))
      (hcheck : checkTemplate pageName request.html request.options = .error e) :
      Ends renderer registry context request partials
        ⟨.error e, renderer.registered partials request,
          (registry.check pageName request.html request.options).2, context', []⟩
  | rendered (data : Json) {context' : Option PageData} (page : CheckedTemplate)
      (hregister : (registerPartials (renderer.engine.configure request.options)
        partials.entries).1 = .ok ())
      (hdata : PageData.resolve? context = (.ok data, context'))
      (hcheck : checkTemplate pageName request.html request.options = .ok page) :
      Ends renderer registry context request partials
        ⟨((renderer.registered partials request).engine.render page.source data).result.mapError
            .render,
          { renderer.registered partials request with
            engine :=
              ((renderer.registered partials request).engine.render page.source data).engine },
          (registry.check pageName request.html request.options).2, context',
          ((renderer.registered partials request).engine.render page.source data).calls⟩

section Render

variable {renderer : PageRenderer} {registry : Registry} {provider : TemplateProvider}
  {context : Option PageData} {request : PageRequest}

/-- Without partials nothing is registered, and the error is that of the lookup. -/
theorem render_of_not_found {e : Error}
    (h : (registry.get provider request.extension request.directory request.options).1 =
      .error e) :
    renderer.render registry provider context request =
      ⟨.error e, renderer,
        (registry.get provider request.extension request.directory request.options).2,
        context, []⟩ := by
  unfold render
  rcases hget : registry.get provider request.extension request.directory request.options with
    ⟨answer, registry'⟩
  rw [hget] at h
  cases h
  rfl

/-- A rendering whose partials are found ends in one of the ways. -/
theorem ends_render {partials : PartialList}
    (h : (registry.get provider request.extension request.directory request.options).1 =
      .ok partials) :
    Ends renderer (registry.get provider request.extension request.directory request.options).2
      context request partials (renderer.render registry provider context request) := by
  unfold render
  rcases hget : registry.get provider request.extension request.directory request.options with
    ⟨answer, registry'⟩
  rw [hget] at h
  cases h
  simp only
  -- the steps in their order: each fails, which is an end, or leads to the next one
  rcases hparts : registerPartials (renderer.engine.configure request.options)
    partials.entries with ⟨result, engine⟩
  cases result with
  | error e => exact .notRegistered hparts
  | ok _ =>
    have hregister : (registerPartials (renderer.engine.configure request.options)
        partials.entries).1 = .ok () := by rw [hparts]
    have hregistered : ({ renderer with engine } : PageRenderer).registerHelpers
        request.helpers = renderer.registered partials request := by
      unfold registered
      rw [hparts]
    simp only [hregistered]
    rcases hdata : PageData.resolve? context with ⟨data, context'⟩
    cases data with
    | error cause => exact .noData hregister hdata
    | ok data =>
      have hcheck : registry'.check pageName request.html request.options =
          (checkTemplate pageName request.html request.options,
            (registry'.check pageName request.html request.options).2) := rfl
      simp only
      rw [hcheck]
      cases hchecked : checkTemplate pageName request.html request.options with
      | error e => exact .notAccepted hregister hdata hchecked
      | ok page => exact .rendered data page hregister hdata hchecked

end Render

/-! ## What is left however it ends -/

section Ends

variable {renderer : PageRenderer} {registry : Registry} {context : Option PageData}
  {request : PageRequest} {partials : PartialList} {outcome : PageOutcome}
  (h : Ends renderer registry context request partials outcome)

include h

/-- At most the page has been checked. -/
theorem Ends.registry_cases :
    outcome.registry = registry ∨
      outcome.registry = (registry.check pageName request.html request.options).2 := by
  cases h with
  | notRegistered _ => exact .inl rfl
  | noData _ _ => exact .inl rfl
  | notAccepted _ _ _ => exact .inr rfl
  | rendered _ _ _ _ _ => exact .inr rfl

/-- Data comes from where it came from, also if it has been produced. -/
theorem Ends.origin_context :
    outcome.context.map PageData.origin = context.map PageData.origin := by
  rw [← PageData.origin_resolve? context]
  cases h with
  | notRegistered _ => exact (PageData.origin_resolve? context).symm
  | noData _ hdata => rw [hdata]
  | notAccepted _ hdata _ => rw [hdata]
  | rendered _ _ _ hdata _ => rw [hdata]

/-- The partials are those that registering the list binds, even if one of them is rejected. -/
theorem Ends.partials_eq : outcome.renderer.engine.partials =
    (registerPartials (renderer.engine.configure request.options)
      partials.entries).2.partials := by
  have hregistered := renderer.partials_registered partials request
  cases h with
  | notRegistered hregister => rw [hregister]
  | noData _ _ => exact hregistered
  | notAccepted _ _ _ => exact hregistered
  | rendered data page _ _ _ =>
    obtain ⟨calls, hcalls⟩ :=
      (renderer.registered partials request).engine.render_snd page.source data
    simp only [hcalls]
    exact hregistered

variable (hregister : (registerPartials (renderer.engine.configure request.options)
  partials.entries).1 = .ok ())

include hregister

/-- If all partials are registered, the helpers are as well, and some calls have been counted. -/
theorem Ends.renderer_of_registered :
    ∃ calls, outcome.renderer =
      { renderer.registered partials request with
        engine := (renderer.registered partials request).engine.countCalls calls } := by
  cases h with
  | notRegistered hrejected =>
    rw [hrejected] at hregister
    cases hregister
  -- without a render there are no calls to count
  | noData _ _ => exact ⟨[], by rw [Engine.countCalls_nil]⟩
  | notAccepted _ _ _ => exact ⟨[], by rw [Engine.countCalls_nil]⟩
  | rendered data page _ _ _ =>
    obtain ⟨calls, hcalls⟩ :=
      (renderer.registered partials request).engine.render_snd page.source data
    exact ⟨calls, by rw [hcalls]⟩

/-- The text of the page, or the error that it ends with, if all partials are registered. -/
theorem Ends.result_of_registered :
    outcome.result =
      match (PageData.resolve? context).1, checkTemplate pageName request.html request.options with
      | .error cause, _ => .error (.contextResolution cause)
      | .ok _, .error e => .error e
      | .ok data, .ok page =>
        ((renderer.registered partials request).engine.render page.source data).result.mapError
          .render := by
  -- the constructors are the outcomes of the two checks, so each reads off one branch
  cases h with
  | notRegistered hrejected =>
    rw [hrejected] at hregister
    cases hregister
  | noData _ hdata => rw [hdata]
  | notAccepted _ hdata hcheck => rw [hdata, hcheck]
  | rendered _ _ _ hdata hcheck => rw [hdata, hcheck]

end Ends

/-! ## What is left of a rendering -/

section Left

variable (renderer : PageRenderer) (registry : Registry) (provider : TemplateProvider)
  (context : Option PageData) (request : PageRequest)

/-- Wherever a rendering ends, its partials have been looked up and at most the page was checked. -/
theorem render_registry :
    let got := (registry.get provider request.extension request.directory request.options).2
    let left := (renderer.render registry provider context request).registry
    left = got ∨ left = (got.check pageName request.html request.options).2 := by
  cases h : (registry.get provider request.extension request.directory request.options).1 with
  | error e => exact .inl (congrArg PageOutcome.registry (render_of_not_found h))
  | ok partials => exact (ends_render h).registry_cases

/-- A rendering leaves data that comes from where it came from. -/
theorem origin_render :
    (renderer.render registry provider context request).context.map PageData.origin =
      context.map PageData.origin := by
  cases h : (registry.get provider request.extension request.directory request.options).1 with
  | error e => rw [render_of_not_found h]
  | ok partials => exact (ends_render h).origin_context

/-- A rendering whose partials are found binds what registering them binds, however it ends. -/
theorem partials_render {partials : PartialList}
    (h : (registry.get provider request.extension request.directory request.options).1 =
      .ok partials) :
    (renderer.render registry provider context request).renderer.engine.partials =
      (registerPartials (renderer.engine.configure request.options)
        partials.entries).2.partials :=
  (ends_render h).partials_eq

end Left

end PageRenderer

end Stencil
