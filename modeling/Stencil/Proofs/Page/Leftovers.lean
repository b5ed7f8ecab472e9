import Stencil.Proofs.Page.Environment
import Stencil.Proofs.Page.FirstRegistration

/-!
# What a page leaves behind

A rendering fails before it has changed anything, or it changes all that it changes however it ends.
Which of the two it is depends on the lookup of its partials. If they are found, the registry has handed
out accepted ones only, so the registrations cannot stop half-way, and of what comes behind them nothing
is left but counts.

* **`render_leaves_alike`**: for every renderer, every registry that a run can leave, and every request, what is
left does not depend on the document and on the data.
-/

namespace Stencil

/-- What is left of data that is produced when it is needed, and of data that is given. -/
theorem PageData.resolve?_snd_eq (context : Option PageData) :
    (PageData.resolve? context).2 = context.map fun data =>
      match data.origin with
      | .given _ => data
      | .onDemand _ => { data with produced := data.produced + 1 } := by
  cases context with
  | none => rfl
  | some data =>
    unfold resolve? resolve
    cases h : data.origin <;> simp [h]

/-- A source that is accepted is accepted again when it is rendered. -/
theorem Engine.result_render_cases (engine : Engine) {source : String}
    {document : Template.Document Json} (h : Template.Document.ofSource source = .ok document)
    (data : Json) :
    (∃ text, (engine.render source data).result = .ok text) ∨
      ∃ failure, (engine.render source data).result = .error (.failed failure) := by
  unfold render
  rw [h]
  simp only
  generalize Render.renderDocument _ _ = rendered
  obtain ⟨failure | text, calls⟩ := rendered
  · exact .inr ⟨failure, rfl⟩
  · exact .inl ⟨text, rfl⟩

namespace PageRenderer

/-! ## Counts apart -/

def uncounted (renderer : PageRenderer) : PageRenderer :=
  { renderer with
    engine := { renderer.engine with
      helpers := renderer.engine.helpers.map fun helper => { helper with calls := 0 } } }

/-- Counting calls changes nothing but their counts. -/
theorem uncounted_countCalls (renderer : PageRenderer) (calls : List String) :
    uncounted { renderer with engine := renderer.engine.countCalls calls } = renderer.uncounted := by
  unfold uncounted Engine.countCalls
  simp only [List.map_map]
  rfl

/-! ## What is registered -/

/-- The helpers of a list are known, and those that were known before. -/
theorem hasHelper_registerHelpers (renderer : PageRenderer)
    (helpers : List (String × Render.HelperFunction)) (name : String) :
    (renderer.registerHelpers helpers).hasHelper name = true ↔
      renderer.hasHelper name = true ∨ name ∈ helpers.map Prod.fst := by
  induction helpers generalizing renderer with
  | nil => simp [registerHelpers]
  | cons helper rest ih =>
    -- after one helper: the names from before and its own
    have hfirst : (renderer.registerHelper helper.1 helper.2).hasHelper name = true ↔
        renderer.hasHelper name = true ∨ name = helper.1 := by
      unfold registerHelper hasHelper
      split
      · rename_i hknown
        refine ⟨.inl, ?_⟩
        rintro (hname | rfl)
        · exact hname
        · exact hknown
      · rw [List.contains_iff_mem, List.contains_iff_mem, List.mem_cons, or_comm]
    show ((renderer.registerHelper helper.1 helper.2).registerHelpers rest).hasHelper name = true ↔ _
    rw [ih, hfirst, List.map_cons, List.mem_cons, or_assoc]

/-- Every partial of the list is known to the renderer, from this render or from one before it. -/
theorem hasPartial_registered {partials : PartialList} (haccepted : partials.Accepted)
    (renderer : PageRenderer) (request : PageRequest) {name : String} (h : name ∈ partials.names) :
    (renderer.registered partials request).hasPartial name = true := by
  show (renderer.registered partials request).engine.hasPartial name = true
  rw [Engine.hasPartial_eq_isSome, source?_registered haccepted, Option.isSome_or, Bool.or_eq_true,
    Option.isSome_map]
  exact .inr ((partials.mem_names_iff name).1 h)

/-! ## How a rendering ends -/

section Ends

variable {renderer : PageRenderer} {registry : Registry} {context : Option PageData}
  {request : PageRequest} {partials : PartialList} {outcome : PageOutcome}
  (h : Ends renderer registry context request partials outcome)

include h

/-- Rendering takes partials from the registry and puts nothing into it. -/
theorem Ends.cache_eq : outcome.registry.cache = registry.cache := by
  obtain hregistry | hregistry := h.registry_cases
  · rw [hregistry]
  · rw [hregistry]
    rfl

variable (hregister : (registerPartials (renderer.engine.configure request.options)
  partials.entries).1 = .ok ())

include hregister

/-- The data are asked for once, as soon as the partials are registered. -/
theorem Ends.context_of_registered : outcome.context = (PageData.resolve? context).2 := by
  cases h with
  | notRegistered hrejected =>
    rw [hrejected] at hregister
    cases hregister
  | noData _ hdata | notAccepted _ hdata _ | rendered _ _ _ hdata _ => rw [hdata]

/-- With all partials registered, there is a text, no data, a rejection of the page, or a failure while
it is rendered. -/
theorem Ends.result_cases :
    (∃ text, outcome.result = .ok text) ∨
    (∃ cause, (PageData.resolve? context).1 = .error cause ∧
      outcome.result = .error (.contextResolution cause)) ∨
    (∃ rejection, Template.Document.ofSource request.html = .error rejection ∧
      outcome.result = .error (.templateSyntax pageName rejection)) ∨
    ∃ failure, outcome.result = .error (.render (.failed failure)) := by
  -- the data, then the document, then the render, in the order in which they can fail
  rw [h.result_of_registered hregister]
  cases hdata : (PageData.resolve? context).1 with
  | error cause => exact .inr (.inl ⟨cause, rfl, rfl⟩)
  | ok data =>
    unfold checkTemplate
    cases hdocument : Template.Document.ofSource request.html with
    | error rejection => exact .inr (.inr (.inl ⟨rejection, rfl, rfl⟩))
    | ok document =>
      simp only
      obtain ⟨text, htext⟩ | ⟨failure, hfailure⟩ :=
        (renderer.registered partials request).engine.result_render_cases hdocument data
      · rw [htext]
        exact .inl ⟨text, rfl⟩
      · rw [hfailure]
        exact .inr (.inr (.inr ⟨failure, rfl⟩))

end Ends

/-! ## What is left -/

/-- **What a page leaves behind.** Any renderer, a registry that any run has left, and a request whose
document and data may vary.

* If the lookup of the partials fails, the answer is this error. The renderer is as it was, and data that
would have to be produced is not.
* If it succeeds, data that is produced when it is needed is produced once, and what is left but for
counts is the same for every document and all data: the renderer with the settings, all partials of the
list and all helpers of the request, and the cache of the lookup. The call ends with a text, without
data, with the rejection of the document, or with a failure while it is rendered. If there is no data,
this is the answer, whether or not the document is accepted. -/
theorem render_leaves_alike (start : PageRenderer) (steps : List Step) (i : Nat) (renderer : PageRenderer)
    (provider : TemplateProvider) (request : PageRequest) :
    let registry := (Session.run { renderer := start } steps).registries i
    let found := registry.get provider request.extension request.directory request.options
    (∀ e, found.1 = .error e → ∀ html context,
      renderer.render registry provider context { request with html := html } =
        ⟨.error e, renderer, found.2, context, []⟩) ∧
    ∀ partials, found.1 = .ok partials →
      ∃ left : PageRenderer,
        (left.engine.strict = request.options.strict.getD false ∧
          left.engine.escapes = !request.options.noEscape.getD false ∧
          left.engine.preventIndent = request.options.preventIndent.getD false) ∧
        (∀ name ∈ partials.names, left.hasPartial name = true) ∧
        (∀ name ∈ request.helpers.map Prod.fst, left.hasHelper name = true) ∧
        ∀ html context,
          let outcome := renderer.render registry provider context { request with html := html }
          outcome.renderer.uncounted = left.uncounted ∧
          outcome.registry.cache = found.2.cache ∧
          (outcome.context = context.map fun data =>
            match data.origin with
            | .given _ => data
            | .onDemand _ => { data with produced := data.produced + 1 }) ∧
          (∀ cause, (PageData.resolve? context).1 = .error cause →
            outcome.result = .error (.contextResolution cause)) ∧
          ((∃ text, outcome.result = .ok text) ∨
            (∃ cause, outcome.result = .error (.contextResolution cause)) ∨
            (∃ rejection, outcome.result = .error (.templateSyntax pageName rejection)) ∨
            ∃ fault, outcome.result = .error (.render fault)) := by
  intro registry found
  have hchecked : registry.Checked :=
    Session.checked_run (fun _ => Registry.checked_of_nothing_cached Registry.cached_empty) steps i
  refine ⟨fun e he html context => render_of_not_found he, fun partials hpartials => ?_⟩
  have haccepted : partials.Accepted := hchecked.accepted hpartials
  refine ⟨renderer.registered partials request, renderer.settings_registered partials request,
    fun name hname => hasPartial_registered haccepted renderer request hname,
    fun name hname => (hasHelper_registerHelpers _ _ _).2 (.inr hname), fun html context => ?_⟩
  -- from here on the document and the data are arbitrary; the renderer left behind was fixed above
  intro outcome
  have hregister := registerPartials_fst renderer { request with html := html } haccepted
  have hends : Ends renderer found.2 context { request with html := html } partials outcome :=
    @ends_render renderer registry provider context { request with html := html } partials hpartials
  refine ⟨?_, hends.cache_eq, ?_, ?_, ?_⟩
  · -- the count of calls is all that a document leaves in the engine
    obtain ⟨calls, hleft⟩ := hends.renderer_of_registered hregister
    rw [hleft]
    exact uncounted_countCalls (renderer.registered partials request) calls
  · rw [hends.context_of_registered hregister, PageData.resolve?_snd_eq]
  · intro cause hcause
    rw [hends.result_of_registered hregister, hcause]
  · obtain htext | ⟨cause, -, hcause⟩ | ⟨rejection, -, hrejection⟩ | ⟨failure, hfailure⟩ :=
      hends.result_cases hregister
    · exact .inl htext
    · exact .inr (.inl ⟨cause, hcause⟩)
    · exact .inr (.inr (.inl ⟨rejection, hrejection⟩))
    · exact .inr (.inr (.inr ⟨_, hfailure⟩))

end PageRenderer

end Stencil
