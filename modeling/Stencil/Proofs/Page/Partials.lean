import Stencil.Page.Renderer

/-!
# Registered partials

An engine binds names to sources. Registering the partials of a list adds those whose names are not
bound yet, the first of a name before the later ones (`source?_registerPartials`). A rendering does
this before it registers helpers, which changes no partial (`partials_registered`).
-/

namespace Stencil

namespace Engine

def source? (engine : Engine) (name : String) : Option String :=
  (engine.partials.find? (·.name == name)).map RegisteredPartial.source

/-- A name is taken if a source is registered for it. -/
theorem hasPartial_eq_isSome (engine : Engine) (name : String) :
    engine.hasPartial name = (engine.source? name).isSome := by
  unfold hasPartial source?
  rw [Option.isSome_map, List.isSome_find?]

theorem source?_of_partials_eq {a b : Engine} (h : a.partials = b.partials) (name : String) :
    a.source? name = b.source? name := by
  unfold source?
  rw [h]

/-- Registering a partial changes nothing if its name is taken, and else adds the layout of a source
that is accepted. -/
theorem registerPartial_cases {engine after : Engine} {name source : String}
    (h : engine.registerPartial name source = .ok after) :
    (engine.hasPartial name = true ∧ after = engine) ∨
    ∃ document, Template.Document.ofSource source = .ok document ∧
      after = { engine with
        partials := engine.partials ++
          [⟨name, source, document.layout engine.preventIndent⟩] } := by
  -- a name that is taken is passed over; otherwise the source has to parse
  unfold registerPartial at h
  split at h
  · rename_i htaken
    cases h
    exact .inl ⟨htaken, rfl⟩
  · cases hdocument : Template.Document.ofSource source with
    | error rejection =>
      rw [hdocument] at h
      cases h
    | ok document =>
      rw [hdocument] at h
      cases h
      exact .inr ⟨document, rfl, rfl⟩

/-- One more name is bound, unless it is taken. -/
theorem source?_registerPartial {engine after : Engine} {name source : String}
    (h : engine.registerPartial name source = .ok after) (other : String) :
    after.source? other =
      (engine.source? other).or (if other = name then some source else none) := by
  obtain ⟨htaken, rfl⟩ | ⟨document, -, rfl⟩ := registerPartial_cases h
  · -- the name is taken, so its source comes ahead of the new one
    rw [hasPartial_eq_isSome] at htaken
    split
    · rename_i hother
      subst hother
      rw [Option.or_of_isSome htaken]
    · rw [Option.or_none]
  · -- the new partial stands last and is found if none before it is
    unfold source?
    simp only [List.find?_append, Option.map_or, List.find?_singleton, beq_iff_eq,
      eq_comm (a := name)]
    split <;> rfl

/-- A source that is accepted can be registered under every name. -/
theorem registerPartial_of_accepted {source : String}
    (h : ∃ document, Template.Document.ofSource source = .ok document) (engine : Engine)
    (name : String) : ∃ after, engine.registerPartial name source = .ok after := by
  obtain ⟨document, h⟩ := h
  unfold registerPartial
  split
  · exact ⟨engine, rfl⟩
  · rw [h]
    exact ⟨_, rfl⟩

end Engine

namespace PageRenderer

/-- The partials of a list are bound behind those that are bound already: the first of a name
counts. -/
theorem source?_registerPartials {engine after : Engine} {entries : List (String × CheckedTemplate)}
    (h : registerPartials engine entries = (.ok (), after)) (name : String) :
    after.source? name =
      (engine.source? name).or ((entries.lookup name).map CheckedTemplate.source) := by
  induction entries generalizing engine with
  | nil =>
    cases h
    exact (Option.or_none).symm
  | cons entry rest ih =>
    unfold registerPartials at h
    cases hfirst : engine.registerPartial entry.1 entry.2.source with
    | error rejection =>
      simp only [hfirst] at h
      cases h
    | ok engine' =>
      simp only [hfirst] at h
      rw [ih h, Engine.source?_registerPartial hfirst, Option.or_assoc, List.lookup_cons]
      -- behind what was bound before, the first entry goes before the rest
      congr 1
      by_cases heq : name = entry.1
      · rw [if_pos heq, beq_iff_eq.2 heq]
        rfl
      · rw [if_neg heq, beq_false_of_ne heq]
        rfl

/-- Partials that are accepted are all registered. -/
theorem registerPartials_of_accepted {entries : List (String × CheckedTemplate)}
    (h : ∀ entry ∈ entries, ∃ document, Template.Document.ofSource entry.2.source = .ok document)
    (engine : Engine) : ∃ after, registerPartials engine entries = (.ok (), after) := by
  induction entries generalizing engine with
  | nil => exact ⟨engine, rfl⟩
  | cons entry rest ih =>
    -- the induction goes over all engines, since the first partial changes this one
    obtain ⟨engine', hfirst⟩ :=
      Engine.registerPartial_of_accepted (h entry List.mem_cons_self) engine entry.1
    obtain ⟨after, hrest⟩ :=
      ih (fun other hother => h other (List.mem_cons_of_mem entry hother)) engine'
    refine ⟨after, ?_⟩
    unfold registerPartials
    simp only [hfirst]
    exact hrest

/-- Registering partials changes nothing else of an engine. -/
theorem registerPartials_frame (engine : Engine) (entries : List (String × CheckedTemplate)) :
    (registerPartials engine entries).2 =
      { engine with partials := (registerPartials engine entries).2.partials } := by
  induction entries generalizing engine with
  | nil => rfl
  | cons entry rest ih =>
    unfold registerPartials
    cases hfirst : engine.registerPartial entry.1 entry.2.source with
    | error rejection => rfl
    | ok after =>
      simp only
      rw [ih after]
      obtain ⟨-, rfl⟩ | ⟨document, -, rfl⟩ := Engine.registerPartial_cases hfirst <;> rfl

/-- Registering helpers changes nothing else of an engine. -/
theorem registerHelpers_frame (renderer : PageRenderer)
    (helpers : List (String × Render.HelperFunction)) :
    (renderer.registerHelpers helpers).engine =
      { renderer.engine with helpers := (renderer.registerHelpers helpers).engine.helpers } := by
  induction helpers generalizing renderer with
  | nil => rfl
  | cons helper rest ih =>
    have hfirst : (renderer.registerHelper helper.1 helper.2).engine =
        { renderer.engine with
          helpers := (renderer.registerHelper helper.1 helper.2).engine.helpers } := by
      unfold registerHelper
      split <;> rfl
    -- the helper tables nest: what the rest writes covers what the first wrote
    have hrest := ih (renderer.registerHelper helper.1 helper.2)
    rw [hfirst] at hrest
    exact hrest

/-- The renderer once the partials of a list and then the helpers of a request are registered. -/
def registered (renderer : PageRenderer) (partials : PartialList) (request : PageRequest) :
    PageRenderer :=
  { renderer with
    engine := (registerPartials (renderer.engine.configure request.options)
      partials.entries).2 }.registerHelpers request.helpers

/-- Registering writes three things: the options of the request, its partials and its helpers. -/
theorem engine_registered (renderer : PageRenderer) (partials : PartialList)
    (request : PageRequest) :
    (renderer.registered partials request).engine =
      { renderer.engine.configure request.options with
        partials := (registerPartials (renderer.engine.configure request.options)
          partials.entries).2.partials
        helpers := (renderer.registered partials request).engine.helpers } := by
  have hpartials := registerPartials_frame (renderer.engine.configure request.options)
    partials.entries
  -- the table of partials does not see which helpers are put beside it
  have hengine (helpers : List RegisteredHelper) :
      ({ (registerPartials (renderer.engine.configure request.options) partials.entries).2 with
        helpers } : Engine) =
      { renderer.engine.configure request.options with
        partials := (registerPartials (renderer.engine.configure request.options)
          partials.entries).2.partials
        helpers } := by
    rw [hpartials]
  exact (registerHelpers_frame _ request.helpers).trans (hengine _)

/-- Helpers do not change the table of partials. -/
theorem partials_registered (renderer : PageRenderer) (partials : PartialList)
    (request : PageRequest) :
    (renderer.registered partials request).engine.partials =
      (registerPartials (renderer.engine.configure request.options)
        partials.entries).2.partials := by
  rw [engine_registered]

end PageRenderer

end Stencil
