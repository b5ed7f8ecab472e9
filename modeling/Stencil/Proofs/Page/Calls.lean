import Stencil.Page.ReadyMade
import Stencil.Proofs.Page.FirstRegistration
import Stencil.Proofs.Partials.Memo
import Stencil.Proofs.Render.Calls

/-!
# Helpers that fail

The calls of helpers of the site that a page makes are those of the one rendering that it comes to, so
they are accounted for by how the page ends (`Ends.accounted`). They are answered by the functions that
the renderer has bound, each of which carries the name that it is bound to (`Session.name_eq`).

* **`failing_helper_ends_page`**: a helper that fails is the last one called, and the page ends with an
  error that says so.
-/

namespace Stencil

/-- The message of a failure ends with that of its cause. -/
theorem Render.Failure.exists_message_eq (failure : Render.Failure) :
    ∃ front, failure.message = front ++ failure.cause.message := by
  unfold message
  cases failure.position with
  | none => exact ⟨"", String.empty_append.symm⟩
  | some p => exact ⟨_, rfl⟩

namespace Engine

/-- A rendering calls helpers of the site as they are registered, the calls counted on. -/
theorem exists_helper?_of_has {engine : Engine} {data : Json} {name : String}
    {run : Render.HelperFunction} (h : (engine.environment data).Has (.site name run)) :
    ∃ key bound earlier, engine.helper? key = some (.site name bound) ∧
      run = fun call => bound (earlier + call) := by
  obtain ⟨key, hkey⟩ := h
  have hkey : (engine.helpers.find? (·.name == key)).map RegisteredHelper.counted =
      some (.site name run) := hkey
  obtain ⟨registered, hfind, hcounted⟩ := Option.map_eq_some_iff.1 hkey
  have hbound : engine.helper? key = some registered.helper := by
    unfold helper?
    rw [hfind]
    rfl
  unfold RegisteredHelper.counted at hcounted
  -- a helper of the engine itself is counted as itself, so only one of the site can be meant
  cases hhelper : registered.helper with
  | builtin helper =>
    rw [hhelper] at hcounted
    cases hcounted
  | site other bound =>
    rw [hhelper] at hcounted hbound
    cases hcounted
    exact ⟨key, bound, registered.calls, hbound, rfl⟩

/-- If anything is called, a template is rendered, and its end accounts for the calls. -/
theorem accounted_render (engine : Engine) (source : String) (data : Json) {call : Render.SiteCall}
    (h : call ∈ (engine.render source data).calls) :
    ∃ result, (engine.render source data).result = result.mapError .failed ∧
      Render.Accounted (engine.environment data) result (engine.render source data).calls := by
  unfold render at h ⊢
  cases hdocument : Template.Document.ofSource source with
  | error rejection =>
    rw [hdocument] at h
    cases h
  | ok document => exact ⟨_, rfl, Render.accounted_renderDocument _ _⟩

end Engine

namespace PageRenderer

/-- Wherever the page ends, its calls are those that evaluating a document accounts for; a page that
ends earlier has none. -/
theorem Ends.accounted {renderer : PageRenderer} {registry : Registry} {context : Option PageData}
    {request : PageRequest} {partials : PartialList} {outcome : PageOutcome}
    (h : Ends renderer registry context request partials outcome) {call : Render.SiteCall}
    (hcall : call ∈ outcome.calls) :
    ∃ data result, outcome.result = result.mapError (fun failure => .render (.failed failure)) ∧
      Render.Accounted ((renderer.registered partials request).engine.environment data) result
        outcome.calls := by
  cases h with
  | notRegistered _ => cases hcall
  | noData _ _ => cases hcall
  | notAccepted _ _ _ => cases hcall
  | rendered data page _ _ _ =>
    obtain ⟨result, hresult, haccounted⟩ :=
      (renderer.registered partials request).engine.accounted_render page.source data hcall
    refine ⟨data, result, ?_, haccounted⟩
    show ((renderer.registered partials request).engine.render page.source data).result.mapError
      Error.render = _
    rw [hresult]
    cases result <;> rfl

/-- Whatever was rendered before, a helper of the site carries the name that it is bound to. -/
theorem Session.name_eq {steps : List Step} {key name : String} {run : Render.HelperFunction}
    (h : (Session.run {} steps).renderer.engine.helper? key = some (.site name run)) :
    name = key := by
  rw [sound_new.helper?_run, Engine.helper?_new] at h
  obtain h | ⟨-, h⟩ := Option.or_eq_some_iff.1 h
  · obtain ⟨builtin, -, hbuiltin⟩ := Option.map_eq_some_iff.1 h
    cases hbuiltin
  · obtain ⟨offer, -, hoffered⟩ := List.exists_of_findSome?_eq_some h
    obtain ⟨bound, -, hsite⟩ := Option.map_eq_some_iff.1 hoffered
    cases hsite
    rfl

/-- **A helper that fails ends the page.** After any run of a new renderer with any registries, a page
is rendered. Every call of a helper of the site that this makes is answered by the function that the
name of the call is bound to. If it is answered with the causes of a failure, given innermost first,
it is the last call, and those before it succeeded. There is no text, but an error of the rendering,
whose message ends with the name of the helper and the causes, outermost first. -/
theorem failing_helper_ends_page (steps : List Step) (i : Nat) (provider : TemplateProvider)
    (context : Option PageData) (request : PageRequest) :
    let now := Session.run {} steps
    let outcome := now.renderer.render (now.registries i) provider context request
    ∀ call ∈ outcome.calls,
      (∃ bound number, outcome.renderer.engine.helper? call.name = some (.site call.name bound) ∧
        call.answer = bound number call.params) ∧
      ∀ causes, call.answer = .error causes →
        (∃ earlier, outcome.calls = call :: earlier ∧ ∀ other ∈ earlier, other.Succeeded) ∧
        ∃ failure front, outcome.result = .error (.render (.failed failure)) ∧
          (Error.render (.failed failure)).message =
            front ++ ("Helper '" ++ call.name ++ "' failed: " ++ ": ".intercalate causes.reverse) := by
  intro now outcome call hcall
  have hsound : now.Sound := Session.sound_new.run steps
  cases hfound : ((now.registries i).get provider request.extension request.directory
    request.options).1 with
  | error e =>
    -- it does not come to a rendering, so nothing is called
    have houtcome : outcome.calls = [] := congrArg PageOutcome.calls (render_of_not_found hfound)
    rw [houtcome] at hcall
    cases hcall
  | ok partials =>
    have haccepted : partials.Accepted := (hsound.checked i).accepted hfound
    obtain ⟨data, result, hresult, haccounted⟩ := (ends_render hfound).accounted hcall
    obtain ⟨⟨run, number, hhas, hanswer⟩, hfailed⟩ := haccounted.of_mem hcall
    refine ⟨?_, fun causes hcauses => ?_⟩
    · obtain ⟨key, bound, earlier, hbound, rfl⟩ := Engine.exists_helper?_of_has hhas
      -- nothing is bound any more once the calls begin
      have hafter : outcome.renderer.engine.helper? key = some (.site call.name bound) := by
        rw [helper?_render context haccepted hfound hsound.inStep,
          ← hsound.inStep.helper?_registered partials]
        exact hbound
      have hkey : call.name = key := by
        have hbound : (Session.run {}
            (steps ++ [.render i provider context request])).renderer.engine.helper? key =
              some (.site call.name bound) := by
          rw [Session.run_append]
          exact hafter
        exact Session.name_eq hbound
      exact ⟨bound, earlier + number, hkey ▸ hafter, hanswer⟩
    · obtain ⟨failure, earlier, rfl, hcause, hcalls, hearlier⟩ := hfailed causes hcauses
      refine ⟨⟨earlier, hcalls, hearlier⟩, ?_⟩
      obtain ⟨front, hfront⟩ := failure.exists_message_eq
      refine ⟨failure, "Template rendering failed: " ++ front, hresult, ?_⟩
      show "Template rendering failed: " ++ failure.message = _
      rw [hfront, hcause, String.append_assoc]
      rfl

/-- A page with a partial that runs over items and tells a failing helper each of them, behind a helper
that succeeds: there is one call of each, and the page ends with the failure. -/
theorem failing_helper_of_site :
    let site := Registry.siteWith (some "\x7b\x7b#each items\x7d\x7d{{echo (risky this)}}{{/each}}")
    let request : PageRequest := {
      html := "{{shout name}}\x7b\x7b#if true\x7d\x7d{{> a}}{{/if}}{{shout name}}"
      helpers := [("echo", ReadyHelper.echo.run), ("shout", ReadyHelper.upper.run),
        ("risky", (ReadyHelper.fail ["disk full", "no data"]).run)]
      directory := some "/site".toList }
    let context := PageData.ofValue
      (.object [("items", .array [.string "x", .string "y"]), ("name", .string "bob")])
    let outcome := ({} : PageRenderer).render {} site.provider (some context) request
    ∃ call earlier failure front, outcome.calls = call :: earlier ∧ call.name = "risky" ∧
      call.answer = .error ["disk full", "no data"] ∧ (∀ other ∈ earlier, other.Succeeded) ∧
      outcome.result = .error (.render (.failed failure)) ∧
      (Error.render (.failed failure)).message =
        front ++ "Helper 'risky' failed: no data: disk full" := by
  intro site request context outcome
  -- the render is run for its calls; what its error says follows from the theorem
  have htold : ∃ call ∈ outcome.calls, call.name = "risky" ∧
      (match call.answer with | .error causes => some causes | .ok _ => none) =
        some ["disk full", "no data"] := by decide +kernel
  obtain ⟨call, hcall, hname, htold⟩ := htold
  have hanswer : call.answer = .error ["disk full", "no data"] := by
    cases h : call.answer with
    | error causes =>
      rw [h] at htold
      exact congrArg Except.error (Option.some.inj htold)
    | ok value =>
      rw [h] at htold
      cases htold
  obtain ⟨-, hends⟩ := failing_helper_ends_page [] 0 site.provider (some context) request call hcall
  obtain ⟨⟨earlier, hcalls, hearlier⟩, failure, front, hresult, hmessage⟩ := hends _ hanswer
  refine ⟨call, earlier, failure, front, hcalls, hname, hanswer, hearlier, hresult, ?_⟩
  rw [hmessage, hname]
  rfl

end PageRenderer

end Stencil
