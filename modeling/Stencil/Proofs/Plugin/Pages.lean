import Stencil.Page.ReadyMade
import Stencil.Proofs.Page.Environment
import Stencil.Proofs.Plugin.Freshness

/-!
# Pages do not show what happened before

The renderer of a plugin is kept from one page to the next, and so is all that was bound in it, also by
renderings that failed. As long as the files do not change, every lookup of partials gives the same
answer (`Current.get_fst_eq`), so a renderer fits the one list that is ever found, and every step of
a session keeps that (`Steady.next`).

* **`renderPage_as_newly_built`**: whatever happened before, a page is rendered as a newly built plugin
  renders it.
-/

namespace Stencil

/-! ## Data that is produced alike -/

/-- Data that is the same whenever it is produced. -/
def DataOrigin.Repeats : DataOrigin → Prop
  | .given _ => True
  | .onDemand produce => ∀ n m, produce n = produce m

namespace PageData

/-- Data that is produced alike does not depend on what was produced before. -/
theorem resolve?_fst_eq {a b : Option PageData} (horigin : a.map origin = b.map origin)
    (hrepeats : ∀ context ∈ b, context.origin.Repeats) : (resolve? a).1 = (resolve? b).1 := by
  -- both have data to produce or neither has
  cases b with
  | none => rw [Option.map_eq_none_iff.1 horigin]
  | some b =>
    obtain ⟨a, rfl, hsame⟩ := Option.map_eq_some_iff.1 horigin
    have hrepeats := hrepeats b rfl
    unfold resolve? resolve
    simp only [hsame]
    cases hb : b.origin with
    | given value => rfl
    | onDemand produce =>
      rw [hb] at hrepeats
      exact hrepeats _ _

end PageData

/-! ## What pages are rendered with -/

namespace PageOptions

/-- The helpers are pure and the data is produced alike. -/
structure Repeatable (page : PageOptions) : Prop where
  helpers : ∀ helper ∈ page.helpers, Render.IsPure helper.2
  context : ∀ context ∈ page.context, context.origin.Repeats

/-- The same helpers, and data from the same origin, however often it has been produced. -/
structure SameSources (a b : PageOptions) : Prop where
  helpers : a.helpers = b.helpers
  origin : a.context.map PageData.origin = b.context.map PageData.origin

theorem SameSources.refl (page : PageOptions) : page.SameSources page := ⟨rfl, rfl⟩

/-- The data that is produced is that of pages that repeat themselves. -/
theorem SameSources.resolve?_eq {a b page : PageOptions} (ha : a.SameSources page)
    (hb : b.SameSources page) (hrepeat : page.Repeatable) :
    (PageData.resolve? a.context).1 = (PageData.resolve? b.context).1 :=
  (PageData.resolve?_fst_eq ha.origin hrepeat.context).trans
    (PageData.resolve?_fst_eq hb.origin hrepeat.context).symm

end PageOptions

namespace Plugin

/-- The partials that a plugin finds for its pages. -/
def found (plugin : Plugin) (provider : TemplateProvider) : Except Error PartialList :=
  (plugin.registry.get provider plugin.extension plugin.directory plugin.options).1

/-- A page asks the registry as the plugin does for a transform. -/
theorem found_eq_get (plugin : Plugin) (provider : TemplateProvider) (html : String) :
    let request := plugin.pageRequest html
    plugin.found provider =
      (plugin.registry.get provider request.extension request.directory request.options).1 := rfl

/-- Plugins that are configured alike and up to date find the same partials. -/
theorem SameSettings.found_eq {a b : Plugin} (h : a.SameSettings b) {provider : TemplateProvider}
    (ha : a.registry.Current provider) (hb : b.registry.Current provider) :
    a.found provider = b.found provider := by
  unfold found
  rw [h.extension, h.directory, h.options]
  exact ha.get_fst_eq hb b.extension b.directory b.options

/-- The renderer of the plugin fits every list that is found. -/
def Fits (plugin : Plugin) (found : Except Error PartialList) : Prop :=
  ∀ partials, found = .ok partials →
    plugin.renderer.Fits partials plugin.options plugin.page.helpers

/-- Fitting is about the renderer, the options and the helpers. -/
theorem Fits.of_eq {a b : Plugin} {found : Except Error PartialList} (h : a.Fits found)
    (hrenderer : b.renderer = a.renderer) (hoptions : b.options = a.options)
    (hhelpers : b.page.helpers = a.page.helpers) : b.Fits found := by
  unfold Fits
  rw [hrenderer, hoptions, hhelpers]
  exact h

/-- A plugin that renders a page still fits what it found. -/
theorem Fits.renderPage {plugin : Plugin} {provider : TemplateProvider}
    (hcurrent : plugin.registry.Current provider) (h : plugin.Fits (plugin.found provider))
    (html : String) : (plugin.renderPage provider html).2.Fits (plugin.found provider) := by
  intro partials hfound
  have hfits : plugin.renderer.Fits partials (plugin.pageRequest html).options
      (plugin.pageRequest html).helpers := h partials hfound
  rw [found_eq_get plugin provider html] at hfound
  exact hfits.render (hcurrent.checked.accepted hfound) hfound plugin.page.context

/-- Plugins that are configured alike, are up to date and fit what they find render a page alike, if
helpers and data repeat themselves. -/
theorem renderPage_eq {a b : Plugin} {provider : TemplateProvider} {page : PageOptions}
    (hsettings : a.SameSettings b) (ha : a.registry.Current provider)
    (hb : b.registry.Current provider) (hfits : a.Fits (b.found provider))
    (hfits' : b.Fits (b.found provider)) (hpage : a.page.SameSources page)
    (hpage' : b.page.SameSources page) (hrepeat : page.Repeatable) (html : String) :
    (a.renderPage provider html).1 = (b.renderPage provider html).1 := by
  have hfound := hsettings.found_eq ha hb
  -- what they find is the same and fits both, so all that is left is that they ask for the same
  have hhelpers := hpage.helpers.trans hpage'.helpers.symm
  have hrequest : a.pageRequest html = b.pageRequest html := by
    unfold pageRequest
    rw [hsettings.extension, hsettings.directory, hsettings.options, hhelpers]
  unfold Fits at hfits
  rw [hsettings.options, hhelpers] at hfits
  have hpure : ∀ helper ∈ b.page.helpers, Render.IsPure helper.2 := by
    rw [hpage'.helpers]
    exact hrepeat.helpers
  rw [found_eq_get a provider html, hrequest] at hfound
  show (a.renderer.render a.registry provider a.page.context (a.pageRequest html)).result = _
  rw [hrequest]
  exact PageRenderer.result_render_eq_of_fits hb.checked hfound
    (fun partials hfound => ⟨hfits partials hfound, hfits' partials hfound⟩) hpure
    (hpage.resolve?_eq hpage' hrepeat)

/-! ## Sessions without changes of the files -/

/-- What the steps of a session keep of a plugin that was built for these files. -/
structure Steady (s : Session) (plugin : Plugin) (files : FileSystem) : Prop where
  unchanged : s.files = files
  settings : s.plugin.SameSettings plugin
  page : s.plugin.page.SameSources plugin.page
  current : s.plugin.registry.Current files.provider
  fits : s.plugin.Fits (plugin.found files.provider)

/-- A step leaves the renderer fitting, whether it renders or not. -/
theorem Steady.next {s : Session} {plugin : Plugin} {files : FileSystem}
    (h : Steady s plugin files) (hcurrent : plugin.registry.Current files.provider) {step : Step}
    (hstep : step.isChange = false) : Steady (s.next step) plugin files := by
  obtain ⟨rfl, hsettings, hpage, hregistry, hfits⟩ := h
  -- settings and registry are kept by every step; the renderer is changed by renderings only
  have hsettings' := (s.sameSettings_next step).trans hsettings
  have hregistry' : (s.next step).Current := Session.Current.next hregistry hstep
  cases step with
  | transform id code =>
    -- at most the registry is another one
    have hplugin : ∃ registry, (s.plugin.transform s.files.provider id code).2 =
        { s.plugin with registry } := by
      obtain h | ⟨registry, h, -⟩ := s.plugin.transform_snd s.files.provider id code
      · exact ⟨s.plugin.registry, h⟩
      · exact ⟨registry, h⟩
    obtain ⟨registry, hplugin⟩ := hplugin
    have hnext : (s.next (.transform id code)).plugin = { s.plugin with registry } := hplugin
    refine ⟨rfl, hsettings', ?_, hregistry', ?_⟩
    · rw [hnext]
      exact hpage
    · rw [hnext]
      exact hfits.of_eq rfl rfl rfl
  | renderPage html =>
    refine ⟨rfl, hsettings', ?_, hregistry', ?_⟩
    · have horigin := s.plugin.renderer.origin_render s.plugin.registry s.files.provider
        s.plugin.page.context (s.plugin.pageRequest html)
      exact ⟨hpage.helpers, horigin.trans hpage.origin⟩
    · -- what is found now is what was found at the start
      rw [← hsettings.found_eq hregistry hcurrent] at hfits ⊢
      exact hfits.renderPage hregistry html
  | fileChanged changed => exact ⟨rfl, hsettings', hpage, hregistry', hfits.of_eq rfl rfl rfl⟩
  | change files => cases hstep

/-- A plugin stays steady along every run in which no file changes. -/
theorem Steady.run {s : Session} {plugin : Plugin} {files : FileSystem} (h : Steady s plugin files)
    (hcurrent : plugin.registry.Current files.provider) {steps : List Step}
    (hsteps : ∀ step ∈ steps, step.isChange = false) : Steady (s.run steps) plugin files := by
  induction steps generalizing s with
  | nil => exact h
  | cons step rest ih =>
    exact ih (h.next hcurrent (hsteps step List.mem_cons_self)) fun later hlater =>
      hsteps later (List.mem_cons_of_mem step hlater)

/-- **Pages do not show what happened before.** A plugin is built with helpers that are pure and data
that is produced alike; its registry may keep lists already, of the files as they are. As long as
the files do not change, whatever steps it has taken, it renders a page as a plugin does that is built
now with the same options, helpers and origin of data: to the same text or the same error. -/
theorem renderPage_as_newly_built {files : FileSystem} {options : PluginOptions}
    {page : PageOptions} {plugin : Plugin} {registry : Registry}
    (hcreate : Plugin.create files.currentPath options page = .ok plugin)
    (hregistry : registry.Current files.provider) (hrepeat : page.Repeatable) {steps : List Step}
    (hquiet : ∀ step ∈ steps, step.isChange = false) (html : String) :
    let now := Session.run ⟨{ plugin with registry }, files⟩ steps
    ∀ newPage : PageOptions, newPage.SameSources page →
      ∃ fresh, Plugin.create now.files.currentPath options newPage = .ok fresh ∧
        (now.plugin.renderPage now.files.provider html).1 =
          (fresh.renderPage now.files.provider html).1 := by
  intro now newPage hsources
  have hplugin := (create_cases hcreate).2
  have hpage : plugin.page = page := by rw [hplugin]
  have hrenderer : plugin.renderer = {} := by rw [hplugin]
  have hempty : plugin.registry.Current files.provider := by
    rw [hplugin]
    exact Registry.current_of_nothing_cached Registry.cached_empty
  -- nothing is bound in a new renderer, so it fits whatever will be found
  have hstart : Steady ⟨{ plugin with registry }, files⟩ plugin files := by
    refine ⟨rfl, ⟨rfl, rfl, rfl, rfl⟩, .refl plugin.page, hregistry, fun partials _ => ?_⟩
    show plugin.renderer.Fits partials plugin.options plugin.page.helpers
    rw [hrenderer]
    exact PageRenderer.fits_new partials plugin.options plugin.page.helpers
  have hnow : Steady now plugin files := hstart.run hempty hquiet
  have hfiles : now.files = files := hnow.unchanged
  refine ⟨{ plugin with page := newPage }, ?_, ?_⟩
  · rw [hfiles]
    exact create_page hcreate newPage
  · have hsettings : now.plugin.SameSettings { plugin with page := newPage } :=
      hnow.settings.trans ⟨rfl, rfl, rfl, rfl⟩
    have hfits : ({ plugin with page := newPage } : Plugin).Fits
        (plugin.found files.provider) := by
      intro partials _
      show plugin.renderer.Fits partials plugin.options newPage.helpers
      rw [hrenderer]
      exact PageRenderer.fits_new partials plugin.options newPage.helpers
    rw [hfiles]
    exact renderPage_eq hsettings hnow.current hempty hnow.fits hfits (hpage ▸ hnow.page) hsources
      hrepeat html

/-- What a page is rendered with that shouts a name, which is produced when it is needed. -/
def shoutedName : PageOptions where
  context := some (.onDemand (.object [("name", .string "bob")]))
  helpers := [("shout", ReadyHelper.upper.run)]

theorem shoutedName_repeatable : shoutedName.Repeatable where
  helpers helper hhelper := by
    rw [List.mem_singleton.1 hhelper]
    intro call other params
    rfl
  context context hcontext := by
    cases hcontext
    intro n m
    rfl

/-- A page is rendered after others that failed: one closes a block that is not open, and one asks for
a partial that is not there. -/
theorem renderPage_of_busy_site :
    let options : PluginOptions := { partialsDirectoryPath := some "site" }
    let steps : List Step := [.renderPage "{{/a}}", .renderPage "{{> b}}", .transform "b.hbs" "y",
      .fileChanged "/site/a.hbs".toList, .renderPage "{{shout}}"]
    let now := Session.run
      ⟨built options "/site".toList shoutedName, Registry.siteWith (some "x")⟩ steps
    (now.plugin.renderPage now.files.provider "<p>{{shout name}} {{> a}}</p>").1 =
      .ok "<p>BOB x</p>" := by
  intro options steps now
  have hcreate : Plugin.create (Registry.siteWith (some "x")).currentPath options shoutedName =
      .ok (built options "/site".toList shoutedName) := rfl
  have hquiet : ∀ step ∈ steps, step.isChange = false := by simp [steps, Step.isChange]
  obtain ⟨fresh, hfresh, hanswer⟩ := renderPage_as_newly_built hcreate
    (Registry.current_of_nothing_cached Registry.cached_empty) shoutedName_repeatable hquiet
    "<p>{{shout name}} {{> a}}</p>" shoutedName (.refl shoutedName)
  have hfresh : Except.ok (built options "/site".toList shoutedName) = Except.ok fresh := hfresh
  -- what is left to evaluate is one page of a new plugin
  cases hfresh
  refine hanswer.trans (toOption_eq_some_iff.1 ?_)
  show ((built { partialsDirectoryPath := some "site" } "/site".toList shoutedName).renderPage
    (Registry.siteWith (some "x")).provider "<p>{{shout name}} {{> a}}</p>").1.toOption = _
  decide +kernel

end Plugin

end Stencil
