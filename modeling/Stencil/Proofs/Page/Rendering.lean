import Stencil.Proofs.Page.Helpers
import Stencil.Proofs.Page.Outcome
import Stencil.Proofs.Partials.Accepted

/-!
# What a rendering leaves bound

The partials that a registry hands out are accepted, so a rendering that finds them has registered them
and its helpers before it can fail: however it ends, the names that are bound after it are those
that were bound before and then those of its list and of its helpers (`source?_render`,
`helper?_render`), and the renderer still knows the names of its helpers (`inStep_render`).
-/

namespace Stencil.PageRenderer

variable {renderer : PageRenderer} {registry : Registry} {provider : TemplateProvider}
  {request : PageRequest}

/-! ## Everything registered -/

section Registered

variable {partials : PartialList} (haccepted : partials.Accepted)

include haccepted

variable (renderer request) in
/-- Accepted partials are registered without an error. -/
theorem registerPartials_fst :
    (registerPartials (renderer.engine.configure request.options) partials.entries).1 =
      .ok () := by
  obtain ⟨engine, hregister⟩ := registerPartials_of_accepted haccepted
    (renderer.engine.configure request.options)
  rw [hregister]

/-- The partials of the list are bound behind those that were bound before. -/
theorem source?_registered (name : String) :
    (renderer.registered partials request).engine.source? name =
      (renderer.engine.source? name).or ((partials.get? name).map CheckedTemplate.source) := by
  obtain ⟨engine, hregister⟩ := registerPartials_of_accepted haccepted
    (renderer.engine.configure request.options)
  have hpartials := renderer.partials_registered partials request
  rw [hregister] at hpartials
  rw [Engine.source?_of_partials_eq hpartials, source?_registerPartials hregister]
  rfl

end Registered

section Helpers

variable (hstep : renderer.InStep) (partials : PartialList)

include hstep

/-- Registering partials takes no notice of helpers. -/
theorem InStep.registerPartials :
    InStep { renderer with
      engine := (PageRenderer.registerPartials (renderer.engine.configure request.options)
        partials.entries).2 } := by
  have hhelpers := helpers_registerPartials (renderer.engine.configure request.options)
    partials.entries
  exact hstep.of_helpers_eq rfl (Engine.helper?_of_helpers_eq hhelpers)

/-- The helpers are bound behind those that were bound before. -/
theorem InStep.helper?_registered (name : String) :
    (renderer.registered partials request).engine.helper? name =
      (renderer.engine.helper? name).or ((request.helpers.lookup name).map (.site name)) := by
  have hhelpers := helpers_registerPartials (renderer.engine.configure request.options)
    partials.entries
  unfold registered
  rw [(hstep.registerPartials partials).helper?_registerHelpers,
    Engine.helper?_of_helpers_eq hhelpers]
  rfl

/-- Registering partials and helpers keeps the two tables of helper names in step. -/
theorem InStep.registered : (renderer.registered partials request).InStep :=
  (hstep.registerPartials partials).registerHelpers request.helpers

end Helpers

/-! ## After a rendering -/

section Found

variable (context : Option PageData) {partials : PartialList} (haccepted : partials.Accepted)
  (hfound : (registry.get provider request.extension request.directory request.options).1 =
    .ok partials)

include haccepted hfound

variable (renderer) in
/-- A rendering leaves everything registered, and some calls counted. -/
theorem render_of_found :
    ∃ calls, (renderer.render registry provider context request).renderer =
      { renderer.registered partials request with
        engine := (renderer.registered partials request).engine.countCalls calls } :=
  (ends_render hfound).renderer_of_registered (registerPartials_fst renderer request haccepted)

/-- The partials of the list are bound behind those that were bound before. -/
theorem source?_render (name : String) :
    (renderer.render registry provider context request).renderer.engine.source? name =
      (renderer.engine.source? name).or ((partials.get? name).map CheckedTemplate.source) := by
  obtain ⟨calls, hleft⟩ := render_of_found renderer context haccepted hfound
  rw [hleft]
  exact source?_registered haccepted name

/-- The helpers are bound behind those that were bound before. -/
theorem helper?_render (hstep : renderer.InStep) (name : String) :
    (renderer.render registry provider context request).renderer.engine.helper? name =
      (renderer.engine.helper? name).or ((request.helpers.lookup name).map (.site name)) := by
  obtain ⟨calls, hleft⟩ := render_of_found renderer context haccepted hfound
  rw [hleft, Engine.helper?_countCalls]
  exact hstep.helper?_registered partials name

/-- A whole render keeps them in step as well: all it does after registering is count calls. -/
theorem inStep_render (hstep : renderer.InStep) :
    (renderer.render registry provider context request).renderer.InStep := by
  obtain ⟨calls, hleft⟩ := render_of_found renderer context haccepted hfound
  rw [hleft]
  exact (hstep.registered partials).of_helpers_eq rfl (Engine.helper?_countCalls _ calls)

end Found

/-! ## Registries that are up to date -/

/-- A rendering keeps a registry up to date. -/
theorem current_render (h : registry.Current provider) (renderer : PageRenderer)
    (context : Option PageData) (request : PageRequest) :
    (renderer.render registry provider context request).registry.Current provider := by
  have hget := h.get request.extension request.directory request.options
  obtain hleft | hleft := render_registry renderer registry provider context request
  · rw [hleft]
    exact hget
  · rw [hleft]
    exact hget.check pageName request.html request.options

end Stencil.PageRenderer
