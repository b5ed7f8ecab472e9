import Stencil.Proofs.Page.Leftovers
import Stencil.Proofs.Template.Layout

/-!
# Validation suffices

A source is parsed when it is checked, and again with the settings of the engine when it is registered
or rendered. The settings take part in the layout alone, which cannot fail, so a source that was accepted
once is accepted for good. A registry hands out checked partials only: what is left that can be rejected
is the document of a page.

* **`validation_suffices`**: so for one source and every engine, and then for whole renderings.
-/

namespace Stencil

/-- An accepted source is registered with its layout, unless its name is taken. -/
theorem Engine.registerPartial_eq {source : String} {document : Template.Document Json}
    (h : Template.Document.ofSource source = .ok document) (engine : Engine) (name : String) :
    engine.registerPartial name source =
      .ok (if engine.hasPartial name then engine else
        { engine with
          partials := engine.partials ++ [⟨name, source, document.layout engine.preventIndent⟩] }) := by
  unfold registerPartial
  split
  · rfl
  · rw [h]
    rfl

namespace PageRenderer

section Ends

variable {renderer : PageRenderer} {registry : Registry} {context : Option PageData}
  {request : PageRequest} {partials : PartialList} {outcome : PageOutcome}
  (h : Ends renderer registry context request partials outcome)
  (hregister : (registerPartials (renderer.engine.configure request.options)
    partials.entries).1 = .ok ())

include h hregister

/-- With all partials registered, a syntax error is one of the document. -/
theorem Ends.of_templateSyntax {name : String} {rejection : Template.Rejection}
    (hresult : outcome.result = .error (.templateSyntax name rejection)) :
    name = pageName ∧ Template.Document.ofSource request.html = .error rejection := by
  obtain ⟨text, hend⟩ | ⟨cause, -, hend⟩ | ⟨rejection', hrejected, hend⟩ | ⟨failure, hend⟩ :=
    h.result_cases hregister
  all_goals rw [hresult] at hend
  · cases hend
  · cases hend
  · cases hend
    exact ⟨rfl, hrejected⟩
  · cases hend

/-- With all partials registered, an error of the rendering comes from its evaluation. -/
theorem Ends.of_render {fault : RenderFault} (hresult : outcome.result = .error (.render fault)) :
    ∃ failure, fault = .failed failure := by
  obtain ⟨text, hend⟩ | ⟨cause, -, hend⟩ | ⟨rejection, -, hend⟩ | ⟨failure, hend⟩ :=
    h.result_cases hregister
  all_goals rw [hresult] at hend
  · cases hend
  · cases hend
  · cases hend
  · cases hend
    exact ⟨failure, rfl⟩

end Ends

open Template in
/-- **Validation suffices.** Let a source be accepted by a check, under any name and options.

* It has one layout, whatever the settings, but for the indents of inclusions.
* Every engine registers it, under every name, laid out with the settings of the engine.
* No engine that renders it finds that it does not parse: there is a text, or the evaluation failed.
* A rendering with any renderer, and a registry that any run has left, registers all partials of its list
if it finds one. A syntax error is then one of the document, which is another one than this source, and
an error of the rendering comes from the evaluation. -/
theorem validation_suffices {template source : String} {options : CompileOptions}
    {checked : CheckedTemplate} (h : checkTemplate template source options = .ok checked) :
    ∃ document, Document.ofSource source = .ok document ∧
      (∀ preventIndent,
        (document.layout preventIndent).map Element.unindented = document.layout true) ∧
      (∀ (engine : Engine) name, engine.registerPartial name source =
        .ok (if engine.hasPartial name then engine else
          { engine with partials :=
              engine.partials ++ [⟨name, source, document.layout engine.preventIndent⟩] })) ∧
      (∀ (engine : Engine) data, (∃ text, (engine.render source data).result = .ok text) ∨
        ∃ failure, (engine.render source data).result = .error (.failed failure)) ∧
      ∀ start steps i (renderer : PageRenderer) provider context request partials,
        let registry := (Session.run { renderer := start } steps).registries i
        let outcome := renderer.render registry provider context request
        (registry.get provider request.extension request.directory request.options).1 =
          .ok partials →
        (registerPartials (renderer.engine.configure request.options) partials.entries).1 = .ok () ∧
          (∀ name rejection, outcome.result = .error (.templateSyntax name rejection) →
            name = pageName ∧ request.html ≠ source ∧
              Document.ofSource request.html = .error rejection) ∧
          ∀ fault, outcome.result = .error (.render fault) → ∃ failure, fault = .failed failure := by
  obtain ⟨document, hdocument⟩ := (checkTemplate_eq_ok_iff.1 h).1
  -- one source on its own: its layout, its registration and its render
  refine ⟨document, hdocument, fun preventIndent => map_unindented_layout preventIndent document,
    Engine.registerPartial_eq hdocument,
    fun engine data => engine.result_render_cases hdocument data, ?_⟩
  -- one page of a session, with the partials that some registry has found
  intro start steps i renderer provider context request partials registry outcome hfound
  have hchecked : registry.Checked :=
    Session.checked_run (fun _ => Registry.checked_of_nothing_cached Registry.cached_empty) steps i
  have hregister := registerPartials_fst renderer request (hchecked.accepted hfound)
  have hends : Ends renderer _ context request partials outcome := ends_render hfound
  refine ⟨hregister, fun name rejection hresult => ?_, fun fault hresult =>
    hends.of_render hregister hresult⟩
  obtain ⟨hname, hrejected⟩ := hends.of_templateSyntax hregister hresult
  refine ⟨hname, ?_, hrejected⟩
  -- the page cannot be the checked source, which parses
  rintro rfl
  rw [hdocument] at hrejected
  cases hrejected

/-- An inclusion behind a blank: the source is accepted, and a new engine registers it. -/
theorem validation_of_indented_inclusion :
    let source := " \x7b\x7b> a\x7d\x7d"
    checkTemplate "b.hbs" source {} = .ok ⟨source, {}⟩ ∧
      ∃ after, ({} : Engine).registerPartial "b" source = .ok after := by
  intro source
  have haccepted : checkTemplate "b.hbs" source {} = .ok ⟨source, {}⟩ :=
    toOption_eq_some_iff.1 (by decide +kernel)
  obtain ⟨document, -, -, hregister, -⟩ := validation_suffices haccepted
  exact ⟨haccepted, _, hregister {} "b"⟩

end PageRenderer

end Stencil
