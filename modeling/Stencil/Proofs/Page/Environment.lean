import Stencil.Proofs.Page.Rendering

/-!
# What a page depends on

The text of a page depends on the engine only through what its names are bound to. A registered
partial is the layout of its source (`Compiled`), and a helper that takes no notice of the number of
the call is the same however often it was called before, so engines that bind names alike show a
rendering the same environment (`environment_eq`).

A renderer is *settled* if its names are bound to given sources, laid out in one way, and to given
helpers, and nothing else is bound. Renderers that are settled alike once a request is registered give
the same text or the same error (`result_render_eq_of_settled`).

A renderer *fits* a list of partials and helpers if all that it has bound is what they would bind in a
new renderer. A rendering that finds the list keeps this true (`Fits.render`), and registering the list
settles the renderer (`Fits.settled_registered`).
-/

namespace Stencil

namespace Render

/-- A helper of the site whose answers do not depend on how often it has been called. -/
def IsPure (run : HelperFunction) : Prop := ∀ call other params, run call params = run other params

/-- A helper whose answers do not depend on how often it has been called. -/
def Helper.IsPure : Helper → Prop
  | .site _ run => Render.IsPure run
  | .builtin _ => True

end Render

/-- The calls that were counted before make no difference to a pure helper. -/
theorem RegisteredHelper.counted_eq {registered : RegisteredHelper}
    (h : registered.helper.IsPure) : registered.counted = registered.helper := by
  unfold counted
  cases hhelper : registered.helper with
  | builtin helper => rfl
  | site name run =>
    rw [hhelper] at h
    simp only [Render.Helper.site.injEq, true_and]
    funext call params
    exact h _ _ params

namespace Engine

/-! ## What a rendering sees -/

/-- All partials are laid out from their sources. -/
def Compiled (engine : Engine) (preventIndent : Bool) : Prop :=
  ∀ p ∈ engine.partials, ∃ document, Template.Document.ofSource p.source = .ok document ∧
    p.template = document.layout preventIndent

/-- Only the partials matter for how they were compiled. -/
theorem Compiled.of_partials_eq {a b : Engine} {preventIndent : Bool}
    (h : a.Compiled preventIndent) (heq : b.partials = a.partials) : b.Compiled preventIndent := by
  intro p hp
  rw [heq] at hp
  exact h p hp

/-- A partial is seen as the layout of the source that its name is bound to. -/
theorem Compiled.partials_environment {engine : Engine} {preventIndent : Bool}
    (h : engine.Compiled preventIndent) (data : Json) (name : String) :
    (engine.environment data).partials name = (engine.source? name).bind fun source =>
      (Template.Document.ofSource source).toOption.map (·.layout preventIndent) := by
  show (engine.partials.find? (·.name == name)).map RegisteredPartial.template = _
  unfold source?
  cases hfind : engine.partials.find? (·.name == name) with
  | none => rfl
  | some p =>
    obtain ⟨document, hdocument, htemplate⟩ := h p (List.mem_of_find?_eq_some hfind)
    show some p.template = (Template.Document.ofSource p.source).toOption.map _
    rw [hdocument, htemplate]
    rfl

/-- A pure helper is seen as it was registered. -/
theorem helpers_environment {engine : Engine} (data : Json) {name : String}
    (hpure : ∀ helper, engine.helper? name = some helper → helper.IsPure) :
    (engine.environment data).helpers name = engine.helper? name := by
  show (engine.helpers.find? (·.name == name)).map RegisteredHelper.counted = _
  unfold helper? at hpure ⊢
  cases hfind : engine.helpers.find? (·.name == name) with
  | none => rfl
  | some registered =>
    rw [hfind] at hpure
    exact congrArg some (RegisteredHelper.counted_eq (hpure _ rfl))

/-- Engines that bind names alike, to pure helpers, and have the same settings, are seen alike. -/
theorem environment_eq {a b : Engine} {preventIndent : Bool} (ha : a.Compiled preventIndent)
    (hb : b.Compiled preventIndent) (hsource : ∀ name, a.source? name = b.source? name)
    (hhelper : ∀ name, a.helper? name = b.helper? name)
    (hpure : ∀ name helper, a.helper? name = some helper → helper.IsPure)
    (hstrict : a.strict = b.strict) (hescapes : a.escapes = b.escapes) (data : Json) :
    a.environment data = b.environment data := by
  have hpartials : (a.environment data).partials = (b.environment data).partials := by
    funext name
    rw [ha.partials_environment, hb.partials_environment, hsource]
  -- a pure helper does not notice how often it was called before
  have hhelpers : (a.environment data).helpers = (b.environment data).helpers := by
    funext name
    rw [helpers_environment data (hpure name), hhelper, helpers_environment data]
    intro helper hbound
    rw [← hhelper] at hbound
    exact hpure name helper hbound
  unfold environment at hpartials hhelpers ⊢
  simp only [Render.Environment.mk.injEq, true_and]
  exact ⟨hpartials, hhelpers, hstrict, hescapes⟩

end Engine

namespace PageRenderer

/-- Registering lays partials out as the engine does it now. -/
theorem compiled_registerPartials {engine : Engine} (h : engine.Compiled engine.preventIndent)
    (entries : List (String × CheckedTemplate)) :
    (registerPartials engine entries).2.Compiled engine.preventIndent := by
  induction entries generalizing engine with
  | nil => exact h
  | cons entry rest ih =>
    unfold registerPartials
    cases hfirst : engine.registerPartial entry.1 entry.2.source with
    | error rejection => exact h
    | ok after =>
      obtain ⟨-, rfl⟩ | ⟨document, hdocument, rfl⟩ := Engine.registerPartial_cases hfirst
      · exact ih h
      · -- the partials from before are compiled already, and the new one is compiled now
        refine ih fun p hp => ?_
        rcases List.mem_append.1 hp with hp | hp
        · exact h p hp
        · rw [List.mem_singleton.1 hp]
          exact ⟨document, hdocument, rfl⟩

/-- The settings are those of the request. -/
theorem settings_registered (renderer : PageRenderer) (partials : PartialList)
    (request : PageRequest) :
    (renderer.registered partials request).engine.strict = request.options.strict.getD false ∧
    (renderer.registered partials request).engine.escapes =
      !request.options.noEscape.getD false ∧
    (renderer.registered partials request).engine.preventIndent =
      request.options.preventIndent.getD false := by
  rw [engine_registered]
  exact ⟨rfl, rfl, rfl⟩

/-! ## Settled renderers -/

/-- The helper that a name stands for where these helpers are offered first: a built-in one if it is the
name of one. -/
def offered (helpers : List (String × Render.HelperFunction)) (name : String) :
    Option Render.Helper :=
  ((Render.Builtin.named? name).map .builtin).or ((helpers.lookup name).map (.site name))

/-- A helper on offer is built in, or one of the pure helpers of the request. -/
theorem isPure_of_offered {helpers : List (String × Render.HelperFunction)}
    (hpure : ∀ helper ∈ helpers, Render.IsPure helper.2) {name : String} {helper : Render.Helper}
    (h : offered helpers name = some helper) : helper.IsPure := by
  unfold offered at h
  rcases Option.or_eq_some_iff.1 h with h | ⟨-, h⟩
  · obtain ⟨builtin, -, rfl⟩ := Option.map_eq_some_iff.1 h
    trivial
  · obtain ⟨run, hrun, rfl⟩ := Option.map_eq_some_iff.1 h
    obtain ⟨before, after, hhelpers, -⟩ := List.lookup_eq_some_iff.1 hrun
    refine hpure (name, run) ?_
    rw [hhelpers]
    exact List.mem_append_right before List.mem_cons_self

/-- The sources that names are bound to, how they are laid out, and the helpers. -/
structure Settled (renderer : PageRenderer) (sources : String → Option String)
    (preventIndent : Bool) (helpers : List (String × Render.HelperFunction)) : Prop where
  inStep : renderer.InStep
  compiled : renderer.engine.Compiled preventIndent
  sources : ∀ name, renderer.engine.source? name = sources name
  helpers : ∀ name, renderer.engine.helper? name = offered helpers name

/-- Renderers that registering a request settles alike render a source alike, if its helpers are
pure. -/
theorem Settled.result_engine_render_eq {renderer other : PageRenderer} {partials : PartialList}
    {request : PageRequest} {sources : String → Option String} {preventIndent : Bool}
    (h : (renderer.registered partials request).Settled sources preventIndent request.helpers)
    (hother : (other.registered partials request).Settled sources preventIndent request.helpers)
    (hpure : ∀ helper ∈ request.helpers, Render.IsPure helper.2) (source : String) (data : Json) :
    ((renderer.registered partials request).engine.render source data).result =
      ((other.registered partials request).engine.render source data).result := by
  obtain ⟨hstrict, hescapes, hindent⟩ := renderer.settings_registered partials request
  obtain ⟨hstrict', hescapes', hindent'⟩ := other.settings_registered partials request
  -- settings are those of the request, so the engines evaluate in one environment
  have henvironment : (renderer.registered partials request).engine.environment data =
      (other.registered partials request).engine.environment data := by
    refine Engine.environment_eq h.compiled hother.compiled ?_ ?_ ?_
      (hstrict.trans hstrict'.symm) (hescapes.trans hescapes'.symm) data
    · exact fun name => (h.sources name).trans (hother.sources name).symm
    · exact fun name => (h.helpers name).trans (hother.helpers name).symm
    · intro name helper hbound
      rw [h.helpers] at hbound
      exact isPure_of_offered hpure hbound
  unfold Engine.render
  rw [henvironment, hindent, hindent']
  cases Template.Document.ofSource source <;> rfl

/-- Two renderers that find the same give the same result, if registering what is found settles them
alike, the helpers are pure, and the same data is produced. -/
theorem result_render_eq_of_settled {renderer other : PageRenderer} {request : PageRequest}
    {registry registry' : Registry} {provider : TemplateProvider}
    (hsame : (registry.get provider request.extension request.directory request.options).1 =
      (registry'.get provider request.extension request.directory request.options).1)
    (hsettled : ∀ partials,
      (registry'.get provider request.extension request.directory request.options).1 =
        .ok partials →
      partials.Accepted ∧ ∃ sources preventIndent,
        (renderer.registered partials request).Settled sources preventIndent request.helpers ∧
        (other.registered partials request).Settled sources preventIndent request.helpers)
    (hpure : ∀ helper ∈ request.helpers, Render.IsPure helper.2) {context context' : Option PageData}
    (hdata : (PageData.resolve? context).1 = (PageData.resolve? context').1) :
    (renderer.render registry provider context request).result =
      (other.render registry' provider context' request).result := by
  cases hfound' : (registry'.get provider request.extension request.directory
    request.options).1 with
  | error e =>
    -- neither comes to a rendering
    rw [hfound'] at hsame
    exact (congrArg PageOutcome.result (render_of_not_found hsame)).trans
      (congrArg PageOutcome.result (render_of_not_found hfound')).symm
  | ok partials =>
    rw [hfound'] at hsame
    obtain ⟨haccepted, sources, preventIndent, h, hother⟩ := hsettled partials hfound'
    have hrender := h.result_engine_render_eq hother hpure
    rw [(ends_render hsame).result_of_registered (registerPartials_fst renderer request haccepted),
      (ends_render hfound').result_of_registered (registerPartials_fst other request haccepted),
      hdata]
    simp only [hrender]

/-! ## Renderers that fit -/

/-- All that is bound is bound as these partials and helpers would be in a new renderer. -/
structure Fits (renderer : PageRenderer) (partials : PartialList) (options : CompileOptions)
    (helpers : List (String × Render.HelperFunction)) : Prop where
  inStep : renderer.InStep
  compiled : renderer.engine.Compiled (options.preventIndent.getD false)
  partials : ∀ name source, renderer.engine.source? name = some source →
    (partials.get? name).map CheckedTemplate.source = some source
  helpers : ∀ name helper, renderer.engine.helper? name = some helper →
    offered helpers name = some helper
  builtins : ∀ name helper, Render.Builtin.named? name = some helper →
    renderer.engine.helper? name = some (.builtin helper)

/-- A new renderer has registered nothing that could be at odds with a request. -/
theorem fits_new (partials : PartialList) (options : CompileOptions)
    (helpers : List (String × Render.HelperFunction)) : Fits {} partials options helpers where
  inStep := inStep_new
  compiled p hp := by cases hp
  partials name source h := by cases h
  helpers name helper h := by
    rw [Engine.helper?_new] at h
    unfold offered
    rw [h]
    rfl
  builtins name helper h := by
    rw [Engine.helper?_new, h]
    rfl

section Registered

variable {renderer : PageRenderer} {partials : PartialList} {request : PageRequest}
  (h : renderer.Fits partials request.options request.helpers) (haccepted : partials.Accepted)

include h

/-- The layouts are made with the settings of the request. -/
theorem Fits.compiled_registered :
    (renderer.registered partials request).engine.Compiled
      (request.options.preventIndent.getD false) := by
  have hconfigured : (renderer.engine.configure request.options).Compiled
      (renderer.engine.configure request.options).preventIndent := h.compiled
  exact (compiled_registerPartials hconfigured partials.entries).of_partials_eq
    (renderer.partials_registered partials request)

/-- Registering adds nothing to what the request offers, since earlier helpers fit it. -/
theorem Fits.helper?_registered (name : String) :
    (renderer.registered partials request).engine.helper? name =
      offered request.helpers name := by
  rw [h.inStep.helper?_registered]
  cases hbound : renderer.engine.helper? name with
  | some helper => rw [h.helpers name helper hbound, Option.some_or]
  | none =>
    -- a name that is not bound is not that of a built-in helper
    unfold offered
    cases hbuiltin : Render.Builtin.named? name with
    | none => rfl
    | some helper =>
      rw [h.builtins name helper hbuiltin] at hbound
      cases hbound

include haccepted

/-- The engine has exactly the partials that were found. -/
theorem Fits.source?_registered (name : String) :
    (renderer.registered partials request).engine.source? name =
      (partials.get? name).map CheckedTemplate.source := by
  rw [PageRenderer.source?_registered haccepted]
  cases hbound : renderer.engine.source? name with
  | some source => rw [h.partials name source hbound, Option.some_or]
  | none => exact Option.none_or

/-- Registering what it fits settles a renderer. -/
theorem Fits.settled_registered :
    (renderer.registered partials request).Settled
      (fun name => (partials.get? name).map CheckedTemplate.source)
      (request.options.preventIndent.getD false) request.helpers where
  inStep := h.inStep.registered partials
  compiled := h.compiled_registered
  sources := h.source?_registered haccepted
  helpers := h.helper?_registered

/-- A renderer that has registered what it fits still fits. -/
theorem Fits.registered :
    (renderer.registered partials request).Fits partials request.options request.helpers where
  inStep := h.inStep.registered partials
  compiled := h.compiled_registered
  partials name source hbound := by
    rw [← hbound]
    exact (h.source?_registered haccepted name).symm
  helpers name helper hbound := by
    rw [← hbound]
    exact (h.helper?_registered name).symm
  -- a built-in helper is offered ahead of any of the request
  builtins name helper hbuiltin := by
    rw [h.helper?_registered]
    unfold offered
    rw [hbuiltin]
    rfl

end Registered

section Found

variable {renderer : PageRenderer} {partials : PartialList} {request : PageRequest}
  {registry : Registry} {provider : TemplateProvider}
  (h : renderer.Fits partials request.options request.helpers) (haccepted : partials.Accepted)
  (hfound : (registry.get provider request.extension request.directory request.options).1 =
    .ok partials)

include h haccepted hfound

/-- A rendering that finds the list that its renderer fits leaves a renderer that fits it. -/
theorem Fits.render (context : Option PageData) :
    (renderer.render registry provider context request).renderer.Fits partials request.options
      request.helpers := by
  have hregistered := h.registered haccepted
  obtain ⟨calls, hleft⟩ := render_of_found renderer context haccepted hfound
  rw [hleft]
  -- counting the calls leaves every helper bound as it was
  have hhelper := Engine.helper?_countCalls (renderer.registered partials request).engine calls
  exact {
    inStep := hregistered.inStep.of_helpers_eq rfl hhelper
    compiled := hregistered.compiled
    partials := hregistered.partials
    helpers := fun name helper hbound => hregistered.helpers name helper (hhelper name ▸ hbound)
    builtins := fun name helper hbuiltin =>
      (hhelper name).trans (hregistered.builtins name helper hbuiltin) }

end Found

/-- Two renderers that find the same and fit it give the same result, if the helpers are pure and the
same data is produced. -/
theorem result_render_eq_of_fits {renderer other : PageRenderer} {request : PageRequest}
    {registry registry' : Registry} {provider : TemplateProvider} (hchecked : registry'.Checked)
    (hsame : (registry.get provider request.extension request.directory request.options).1 =
      (registry'.get provider request.extension request.directory request.options).1)
    (hfits : ∀ partials,
      (registry'.get provider request.extension request.directory request.options).1 =
        .ok partials →
      renderer.Fits partials request.options request.helpers ∧
        other.Fits partials request.options request.helpers)
    (hpure : ∀ helper ∈ request.helpers, Render.IsPure helper.2) {context context' : Option PageData}
    (hdata : (PageData.resolve? context).1 = (PageData.resolve? context').1) :
    (renderer.render registry provider context request).result =
      (other.render registry' provider context' request).result := by
  refine result_render_eq_of_settled hsame (fun partials hfound => ?_) hpure hdata
  -- partials that a registry serves were checked before
  have haccepted := hchecked.accepted hfound
  obtain ⟨h, hother⟩ := hfits partials hfound
  exact ⟨haccepted, _, _, h.settled_registered haccepted, hother.settled_registered haccepted⟩


end PageRenderer

end Stencil
