import Mathlib.Data.List.Induction
import Mathlib.Logic.Function.Basic
import Stencil.Page.ReadyMade
import Stencil.Proofs.Page.Environment
import Stencil.Proofs.Page.FirstRegistration

/-!
# What earlier options leave behind

Pages are rendered one after the other with the same files, partials directory and helpers, each with
its own options, document and data. The options take no part in what is loaded (`loaded_withOptions`).
The first page that is rendered settles the renderer, and since all names are then bound, nothing that
comes later changes how the partials are laid out (`Settled.registered`). Strictness and escaping are
set anew for every page.

* **`result_after`**: all that a page shows of the ones before it is how the first of them wanted
  partials to be indented. Where it wants the same, it is rendered as a new renderer renders it.
-/

namespace Stencil

/-! ## The same files with other options -/

namespace PartialList

/-- The same sources under the same names, with these options. -/
def withOptions (partials : PartialList) (options : CompileOptions) : PartialList :=
  ⟨partials.entries.map fun entry => (entry.1, ⟨entry.2.source, options⟩)⟩

def source? (partials : PartialList) (name : String) : Option String :=
  (partials.get? name).map CheckedTemplate.source

/-- Options are carried along with a source and do not change it. -/
theorem source?_withOptions (partials : PartialList) (options : CompileOptions) :
    (partials.withOptions options).source? = partials.source? := by
  funext name
  obtain ⟨entries⟩ := partials
  unfold source? get? withOptions
  induction entries with
  | nil => rfl
  | cons first rest ih =>
    rw [List.map_cons, List.lookup_cons, List.lookup_cons]
    cases name == first.1 with
    | true => rfl
    | false => exact ih

end PartialList

namespace Registry

section Loading

variable (provider : TemplateProvider) (ext : Extension) (options : CompileOptions)

/-- Options do not take part in loading a file, and stand beside its source. -/
theorem loadedFile_withOptions (base file : Path) :
    loadedFile provider base ext options file =
      (loadedFile provider base ext {} file).map fun entry =>
        (entry.1, ⟨entry.2.source, options⟩) := by
  rw [loadedFile_eq, loadedFile_eq]
  cases nameOfPartial? base file ext with
  | none => rfl
  | some name =>
    cases provider.read file with
    | error e => rfl
    | ok text =>
      -- the check reads the text alone and hands the options on
      have hcheck : checkTemplate (String.ofList file) text options =
          (checkTemplate (String.ofList file) text {}).map fun t => ⟨t.source, options⟩ := by
        unfold checkTemplate
        cases Template.Document.ofSource text <;> rfl
      show (checkTemplate (String.ofList file) text options).map (name, ·) =
        ((checkTemplate (String.ofList file) text {}).map (name, ·)).map _
      rw [hcheck]
      cases checkTemplate (String.ofList file) text {} <;> rfl

/-- Options do not take part in loading a directory. -/
theorem loaded_withOptions (base : Path) :
    loaded provider base ext options =
      (loaded provider base ext {}).map (·.withOptions options) := by
  have hfile : loadedFile provider base ext options = fun file =>
      (loadedFile provider base ext {} file).map fun entry => (entry.1, ⟨entry.2.source, options⟩) :=
    funext (loadedFile_withOptions provider ext options base)
  rw [loaded_eq, loaded_eq, hfile]
  cases provider.scan base ext with
  | error e => rfl
  | ok files =>
    simp only [Except.bind]
    rw [mapM_map_result]
    cases files.mapM (loadedFile provider base ext {}) <;> rfl

/-- A registry that is up to date finds the same sources with all options. -/
theorem Current.get_withOptions {registry : Registry} {provider : TemplateProvider}
    (h : registry.Current provider) (ext : Extension) (dir : Option Path) (options : CompileOptions) :
    (registry.get provider ext dir options).1 =
      ((({} : Registry).get provider ext dir {}).1).map (·.withOptions options) := by
  have hnew : ({} : Registry).Current provider := current_of_nothing_cached cached_empty
  cases dir with
  | none => rfl
  | some dir =>
    cases hresolve : resolvePath provider.current dir with
    | error e =>
      rw [get_of_not_resolve hresolve, get_of_not_resolve hresolve]
      rfl
    -- both registries are current, so both answer by a load, and a load only hands the options on
    | ok base =>
      rw [get_of_resolve hresolve, get_of_resolve hresolve, h.getResolved_fst, hnew.getResolved_fst,
        loaded_withOptions]

end Loading

end Registry

namespace PageRenderer

/-! ## Settled renderers stay as they are -/

/-- Nothing is registered under names that are taken. -/
theorem registerPartials_of_taken {engine : Engine} {entries : List (String × CheckedTemplate)}
    (h : ∀ entry ∈ entries, engine.hasPartial entry.1 = true) :
    registerPartials engine entries = (.ok (), engine) := by
  induction entries with
  | nil => rfl
  | cons entry rest ih =>
    have hfirst : engine.registerPartial entry.1 entry.2.source = .ok engine :=
      if_pos (h entry List.mem_cons_self)
    unfold registerPartials
    rw [hfirst]
    exact ih fun other hother => h other (List.mem_cons_of_mem entry hother)

section Settled

variable {renderer : PageRenderer} {sources : String → Option String} {preventIndent : Bool}

/-- A renderer that is settled keeps its layouts, whatever the options of the request. -/
theorem Settled.registered {partials : PartialList} (request : PageRequest)
    (h : renderer.Settled partials.source? preventIndent request.helpers) :
    (renderer.registered partials request).Settled partials.source? preventIndent
      request.helpers := by
  -- every name of the list is bound, since just these are
  have htaken : ∀ entry ∈ partials.entries,
      (renderer.engine.configure request.options).hasPartial entry.1 = true := by
    intro entry hentry
    show renderer.engine.hasPartial entry.1 = true
    rw [Engine.hasPartial_eq_isSome, h.sources, PartialList.source?, Option.isSome_map,
      ← PartialList.mem_names_iff]
    exact List.mem_map_of_mem hentry
  have hpartials : (renderer.registered partials request).engine.partials =
      renderer.engine.partials := by
    rw [partials_registered, registerPartials_of_taken htaken]
    rfl
  exact {
    inStep := h.inStep.registered partials
    compiled := h.compiled.of_partials_eq hpartials
    sources := fun name => (Engine.source?_of_partials_eq hpartials name).trans (h.sources name)
    helpers := fun name => by
      -- the helpers of the request are those that are bound already
      rw [h.inStep.helper?_registered, h.helpers]
      unfold offered
      rw [Option.or_assoc, Option.or_self] }

/-- Once everything is registered, rendering leaves the renderer settled. -/
theorem settled_render {partials : PartialList} {request : PageRequest} {registry : Registry}
    {provider : TemplateProvider} (context : Option PageData)
    (h : (renderer.registered partials request).Settled sources preventIndent request.helpers)
    (haccepted : partials.Accepted)
    (hfound : (registry.get provider request.extension request.directory request.options).1 =
      .ok partials) :
    (renderer.render registry provider context request).renderer.Settled sources preventIndent
      request.helpers := by
  obtain ⟨calls, hleft⟩ := render_of_found renderer context haccepted hfound
  rw [hleft]
  -- calls that were made are counted, which binds no name anew
  have hhelper := Engine.helper?_countCalls (renderer.registered partials request).engine calls
  exact {
    inStep := h.inStep.of_helpers_eq rfl hhelper
    compiled := h.compiled
    sources := h.sources
    helpers := fun name => (hhelper name).trans (h.helpers name) }

end Settled

/-! ## One page after the other -/

/-- What the pages of a site have in common: the files, the partials directory and the helpers.
Registries may be in use already. -/
structure Site where
  provider : TemplateProvider
  extension : Extension := .standard
  directory : Option Path
  helpers : List (String × Render.HelperFunction) := []
  registries : Nat → Registry := fun _ => {}
  pure : ∀ helper ∈ helpers, Render.IsPure helper.2
  current : ∀ i, (registries i).Current provider

/-- What a page asks for itself, and the number of the registry that it is rendered with. -/
structure Ask where
  html : String
  options : CompileOptions := {}
  context : Option PageData := none
  registry : Nat := 0

/-- Whether lines of partials are to stay as they are where the tag is indented. -/
def Ask.preventIndent (ask : Ask) : Bool := ask.options.preventIndent.getD false

namespace Site

variable (site : Site)

def request (ask : Ask) : PageRequest where
  html := ask.html
  helpers := site.helpers
  extension := site.extension
  directory := site.directory
  options := ask.options

/-- A new renderer and the registries after some pages. -/
def after (asks : List Ask) : Session :=
  Session.run { registries := site.registries } <| asks.map fun ask =>
    .render ask.registry site.provider ask.context (site.request ask)

/-- The text of a page or its error, after earlier pages. -/
def result (earlier : List Ask) (ask : Ask) : Except Error String :=
  ((site.after earlier).renderer.render ((site.after earlier).registries ask.registry)
    site.provider ask.context (site.request ask)).result

def fresh (ask : Ask) : Except Error String :=
  (({} : PageRenderer).render {} site.provider ask.context (site.request ask)).result

/-- The partials that are found, but for their options. -/
def found : Except Error PartialList :=
  (({} : Registry).get site.provider site.extension site.directory {}).1

theorem after_append_singleton (asks : List Ask) (ask : Ask) :
    site.after (asks ++ [ask]) = (site.after asks).next
      (.render ask.registry site.provider ask.context (site.request ask)) := by
  unfold after
  rw [List.map_append, Session.run_append]
  rfl

/-- The files of a site stay as they are, so its registries stay current. -/
theorem current_after (asks : List Ask) (i : Nat) :
    ((site.after asks).registries i).Current site.provider := by
  induction asks using List.reverseRecOn generalizing i with
  | nil => exact site.current i
  | append_singleton asks ask ih =>
    rw [after_append_singleton]
    have hleft := current_render (ih ask.registry) (site.after asks).renderer ask.context
      (site.request ask)
    refine (Function.forall_update_iff (site.after asks).registries
      fun _ registry => Registry.Current registry site.provider).2 ⟨hleft, fun j _ => ih j⟩ i

/-- A registry that is up to date finds the same sources for every page. -/
theorem get_request {registry : Registry} (h : registry.Current site.provider) (ask : Ask) :
    (registry.get site.provider (site.request ask).extension (site.request ask).directory
      (site.request ask).options).1 = site.found.map (·.withOptions ask.options) :=
  h.get_withOptions site.extension site.directory ask.options

theorem current_new : ({} : Registry).Current site.provider :=
  Registry.current_of_nothing_cached Registry.cached_empty

section Found

variable {site} {partials : PartialList} (h : site.found = .ok partials)

include h

/-- The partials of a site are found for every request, under the options of the request. -/
theorem get_of_found {registry : Registry} (hcurrent : registry.Current site.provider)
    (ask : Ask) :
    (registry.get site.provider (site.request ask).extension (site.request ask).directory
      (site.request ask).options).1 = .ok (partials.withOptions ask.options) := by
  rw [get_request site hcurrent, h]
  rfl

/-- Partials of a site have passed the check once, whatever options they carry now. -/
theorem accepted_of_found (ask : Ask) : (partials.withOptions ask.options).Accepted :=
  site.current_new.checked.accepted (get_of_found h site.current_new ask)

/-- A new renderer is settled by the first page. -/
theorem settled_new (ask : Ask) :
    (({} : PageRenderer).registered (partials.withOptions ask.options) (site.request ask)).Settled
      partials.source? ask.preventIndent site.helpers := by
  have hfits : ({} : PageRenderer).Fits (partials.withOptions ask.options)
      (site.request ask).options (site.request ask).helpers := fits_new _ _ _
  rw [← partials.source?_withOptions ask.options]
  exact hfits.settled_registered (accepted_of_found h ask)

/-- The first page settles the renderer, and the later ones leave it settled. -/
theorem settled_after (first : Ask) (rest : List Ask) :
    (site.after (first :: rest)).renderer.Settled partials.source? first.preventIndent
      site.helpers := by
  induction rest using List.reverseRecOn with
  | nil =>
    exact settled_render first.context (settled_new h first) (accepted_of_found h first)
      (get_of_found h (site.current_after [] first.registry) first)
  | append_singleton rest ask ih =>
    rw [← List.cons_append, after_append_singleton]
    -- the list that is found now differs in its options only
    refine settled_render ask.context ?_ (accepted_of_found h ask)
      (get_of_found h (site.current_after (first :: rest) ask.registry) ask)
    rw [← partials.source?_withOptions ask.options] at ih ⊢
    exact ih.registered (site.request ask)

/-- Registering a page, the layouts are those of the first page: its own, if nothing came before. -/
theorem settled_registered (earlier : List Ask) (ask : Ask) :
    ((site.after earlier).renderer.registered (partials.withOptions ask.options)
      (site.request ask)).Settled partials.source? (earlier.head?.getD ask).preventIndent
      site.helpers := by
  cases earlier with
  | nil => exact settled_new h ask
  | cons first rest =>
    have hsettled := settled_after h first rest
    rw [← partials.source?_withOptions ask.options] at hsettled ⊢
    exact hsettled.registered (site.request ask)

end Found

/-- Renderers that a page settles alike render it alike, with registries that are up to date. -/
theorem result_render_eq {renderer other : PageRenderer} {registry registry' : Registry}
    (hcurrent : registry.Current site.provider) (hcurrent' : registry'.Current site.provider)
    (ask : Ask) (preventIndent : Bool)
    (hsettled : ∀ partials, site.found = .ok partials →
      (renderer.registered (partials.withOptions ask.options) (site.request ask)).Settled
        partials.source? preventIndent site.helpers ∧
      (other.registered (partials.withOptions ask.options) (site.request ask)).Settled
        partials.source? preventIndent site.helpers) :
    (renderer.render registry site.provider ask.context (site.request ask)).result =
      (other.render registry' site.provider ask.context (site.request ask)).result := by
  refine result_render_eq_of_settled (hcurrent.get_fst_eq hcurrent' _ _ _)
    (fun found hget => ⟨hcurrent'.checked.accepted hget, ?_⟩) site.pure rfl
  rw [site.get_request hcurrent' ask] at hget
  -- a site without partials fails alike everywhere, with nothing registered
  cases hfound : site.found with
  | error e =>
    rw [hfound] at hget
    cases hget
  | ok partials =>
    rw [hfound] at hget
    cases hget
    exact ⟨partials.source?, preventIndent, hsettled partials hfound⟩

/-- **What earlier pages leave behind.** Pages are rendered one after the other by a new renderer, with
registries that are up to date; files, partials directory and helpers stay the same, and the helpers
are pure. Of all that came before, its options, documents and data, a page shows nothing but whether
the first page wanted the lines of partials to stay as they are. If it wants the same itself, and so
always if it is the first, its text or its error is that of a new renderer with a new registry. -/
theorem result_after (earlier : List Ask) (ask : Ask) :
    (∀ others : List Ask,
      (earlier.head?.getD ask).preventIndent = (others.head?.getD ask).preventIndent →
      site.result earlier ask = site.result others ask) ∧
    ((earlier.head?.getD ask).preventIndent = ask.preventIndent →
      site.result earlier ask = site.fresh ask) := by
  -- the first part compares two sessions, the second one session and a new plugin
  refine ⟨fun others hsame => ?_, fun hsame => ?_⟩
  · refine site.result_render_eq (site.current_after earlier ask.registry)
      (site.current_after others ask.registry) ask _ fun partials hfound =>
        ⟨settled_registered hfound earlier ask, ?_⟩
    rw [hsame]
    exact settled_registered hfound others ask
  · refine site.result_render_eq (site.current_after earlier ask.registry) site.current_new ask _
      fun partials hfound => ⟨settled_registered hfound earlier ask, ?_⟩
    rw [hsame]
    exact settled_new hfound ask

end Site

/-- A site with a partial that includes another one, which has two lines, in an indented tag. -/
def nestedSite : Site where
  provider := FileSystem.provider {
    root := .directory [("site".toList, .directory [
      ("inner.hbs".toList, .file (.text "a\nb\n")),
      ("outer.hbs".toList, .file (.text "  {{> inner}}"))])]
    current := [] }
  directory := some "/site".toList
  helpers := [("shout", ReadyHelper.upper.run)]
  pure helper hhelper := by
    rw [List.mem_singleton.1 hhelper]
    intro call other params
    rfl
  current _ := Registry.current_of_nothing_cached Registry.cached_empty

/-- A page that is rendered after a strict one that fails and one that prevents indentation looks as if
it were the first, and as if other pages had come before it. -/
theorem result_after_of_nested_site :
    let strict : CompileOptions := { strict := some true, noEscape := some true }
    let flat : CompileOptions := { preventIndent := some true }
    let page : Ask := { html := "{{> outer}}<p>{{shout name}}</p>{{nobody}}" }
    nestedSite.result [{ html := "{{nobody}}", options := strict },
        { html := "{{> outer}}", options := flat, registry := 1 }] page =
      .ok "  a\n  b\n<p></p>" ∧
    nestedSite.result [{ html := "-", options := flat }] page =
      nestedSite.result [{ html := "{{> inner}}", options := flat }, page] page := by
  intro strict flat page
  obtain ⟨-, hfresh⟩ := nestedSite.result_after [{ html := "{{nobody}}", options := strict },
    { html := "{{> outer}}", options := flat, registry := 1 }] page
  obtain ⟨hothers, -⟩ := nestedSite.result_after [{ html := "-", options := flat }] page
  -- the renders before are evened out by the theorem; the fresh one is evaluated
  refine ⟨(hfresh rfl).trans (toOption_eq_some_iff.1 ?_), hothers _ rfl⟩
  decide +kernel

/-- A first page that wants the lines of partials to stay as they are, though it includes none, takes
the indentation from a nested partial of the next page, which does not ask for that. -/
theorem result_after_of_flat_page :
    let flat : CompileOptions := { preventIndent := some true }
    nestedSite.result [{ html := "-", options := flat }] { html := "{{> outer}}" } =
      .ok "  a\nb\n" ∧
    nestedSite.fresh { html := "{{> outer}}" } = .ok "  a\n  b\n" := by
  intro flat
  constructor
  · refine toOption_eq_some_iff.1 ?_
    decide +kernel
  · refine toOption_eq_some_iff.1 ?_
    decide +kernel

end PageRenderer

end Stencil
