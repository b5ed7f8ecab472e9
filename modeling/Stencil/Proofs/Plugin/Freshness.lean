import Stencil.Plugin.Basic
import Stencil.Proofs.Page.Rendering
import Stencil.Proofs.Partials.Memo
import Stencil.Proofs.Path.Containment

/-!
# No stale partials in modules

Runs of a plugin: templates are transformed, pages rendered and changed files noticed in any order,
and the files change in between in any way. A plugin is up to date with the files as long as they do
not change (`Session.Current.next`), and it is so again after the notice of any path that resolves
to its partials directory or below it (`Session.current_fileChanged`): the directory that was
resolved when the plugin was built is the one under which lists are kept, and the one that noticed
paths are compared with.

* **`transform_eq_afresh`**: a plugin that is up to date transforms as if it kept nothing.
* **`transform_as_newly_built`**: unless the files have changed without a notice, a template is
  transformed as a newly built plugin does it.
-/

namespace Stencil

namespace Plugin

/-! ## Runs -/

/-- A step of a run: a call of a hook, or a change of the files. -/
inductive Step where
  | transform (id code : String)
  | renderPage (html : String)
  | fileChanged (changed : Path)
  | change (files : FileSystem)

def Step.isChange : Step → Bool
  | change _ => true
  | _ => false

/-- A plugin, and the files that it finds. -/
structure Session where
  plugin : Plugin
  files : FileSystem

namespace Session

def next (s : Session) : Step → Session
  | .transform id code => { s with plugin := (s.plugin.transform s.files.provider id code).2 }
  | .renderPage html => { s with plugin := (s.plugin.renderPage s.files.provider html).2 }
  | .fileChanged changed =>
    { s with plugin := (s.plugin.fileChanged s.files.currentPath changed).2.2 }
  | .change files => { s with files }

def run (s : Session) (steps : List Step) : Session := steps.foldl next s

theorem run_append (s : Session) (before after : List Step) :
    s.run (before ++ after) = (s.run before).run after := List.foldl_append

end Session

/-- Since the files last changed there has been a notice of a path that resolves to the directory or
below it, or they have not changed at all. -/
def Notified (dir : Path) (start : Session) (steps : List Step) : Prop :=
  (∀ step ∈ steps, step.isChange = false) ∨
  ∃ before changed after, steps = before ++ .fileChanged changed :: after ∧
    (∀ step ∈ after, step.isChange = false) ∧
    ∃ resolved, Path.resolve (start.run before).files.currentPath changed = .ok resolved ∧
      Path.AtOrBelow dir resolved

/-! ## What no step changes -/

structure SameSettings (a b : Plugin) : Prop where
  extension : a.extension = b.extension
  directory : a.directory = b.directory
  guarded : a.guarded = b.guarded
  options : a.options = b.options

theorem SameSettings.trans {a b c : Plugin} (h : a.SameSettings b) (h' : b.SameSettings c) :
    a.SameSettings c :=
  ⟨h.extension.trans h'.extension, h.directory.trans h'.directory, h.guarded.trans h'.guarded,
    h.options.trans h'.options⟩

/-- A transformation changes nothing but the registry, where a template is checked and then its
partials are looked up. -/
theorem transform_snd (plugin : Plugin) (provider : TemplateProvider) (id code : String) :
    (plugin.transform provider id code).2 = plugin ∨
      ∃ registry, (plugin.transform provider id code).2 = { plugin with registry } ∧
        (registry = (plugin.registry.check id code plugin.options).2 ∨
          registry = ((plugin.registry.check id code plugin.options).2.get provider
            plugin.extension plugin.directory plugin.options).2) := by
  unfold transform
  split
  · exact .inl rfl
  · right
    rcases plugin.registry.check id code plugin.options with ⟨checked, registry⟩
    -- a rejected target ends the transform, so the partials are not asked for
    cases checked with
    | error e => exact ⟨registry, rfl, .inl rfl⟩
    | ok target =>
      refine ⟨(registry.get provider plugin.extension plugin.directory plugin.options).2, ?_,
        .inr rfl⟩
      simp only
      rcases registry.get provider plugin.extension plugin.directory plugin.options with
        ⟨answer, registry'⟩
      cases answer <;> rfl

/-- A transform writes to the registry only. -/
theorem sameSettings_transform (plugin : Plugin) (provider : TemplateProvider) (id code : String) :
    (plugin.transform provider id code).2.SameSettings plugin := by
  obtain h | ⟨registry, h, _⟩ := plugin.transform_snd provider id code
  · rw [h]
    exact ⟨rfl, rfl, rfl, rfl⟩
  · rw [h]
    exact ⟨rfl, rfl, rfl, rfl⟩

/-- A transform caches only what the files give now. -/
theorem current_transform {plugin : Plugin} {provider : TemplateProvider}
    (hcurrent : plugin.registry.Current provider) (id code : String) :
    (plugin.transform provider id code).2.registry.Current provider := by
  have hcheck := hcurrent.check id code plugin.options
  obtain h | ⟨registry, h, rfl | rfl⟩ := plugin.transform_snd provider id code
  · rw [h]
    exact hcurrent
  · rw [h]
    exact hcheck
  · rw [h]
    exact hcheck.get plugin.extension plugin.directory plugin.options

/-- No step changes how the plugin is configured. -/
theorem Session.sameSettings_next (s : Session) (step : Step) :
    (s.next step).plugin.SameSettings s.plugin := by
  cases step with
  | transform id code => exact sameSettings_transform s.plugin s.files.provider id code
  | renderPage html => exact ⟨rfl, rfl, rfl, rfl⟩
  | fileChanged changed => exact ⟨rfl, rfl, rfl, rfl⟩
  | change files => exact ⟨rfl, rfl, rfl, rfl⟩

/-- No run changes the settings of a plugin. -/
theorem Session.sameSettings_run (s : Session) (steps : List Step) :
    (s.run steps).plugin.SameSettings s.plugin := by
  induction steps generalizing s with
  | nil => exact ⟨rfl, rfl, rfl, rfl⟩
  | cons step rest ih => exact (ih (s.next step)).trans (s.sameSettings_next step)

/-! ## Staying up to date -/

/-- The plugin keeps only lists that loading the present files gives. -/
def Session.Current (s : Session) : Prop := s.plugin.registry.Current s.files.provider

/-- A plugin that is up to date stays so as long as the files do not change. -/
theorem Session.Current.next {s : Session} (h : s.Current) {step : Step}
    (hstep : step.isChange = false) : (s.next step).Current := by
  cases step with
  | transform id code => exact current_transform h id code
  | renderPage html => exact PageRenderer.current_render h s.plugin.renderer s.plugin.page.context _
  | fileChanged changed =>
    -- a notice drops all lists or none
    show Registry.Current
      (Watcher.react ⟨s.plugin.directory⟩ _ s.plugin.registry changed).registry _
    unfold Watcher.react
    split
    · exact h
    · split
      · exact Registry.current_of_nothing_cached Registry.cached_invalidate
      · exact h
  | change files => cases hstep

/-- Without a change of files nothing that is cached goes out of date. -/
theorem Session.Current.run {s : Session} (h : s.Current) {steps : List Step}
    (hsteps : ∀ step ∈ steps, step.isChange = false) : (s.run steps).Current := by
  induction steps generalizing s with
  | nil => exact h
  | cons step rest ih =>
    exact ih (h.next (hsteps step List.mem_cons_self)) fun later hlater =>
      hsteps later (List.mem_cons_of_mem step hlater)

/-- The notice of a path that resolves to the partials directory or below it brings a plugin up to
date, whatever it kept. -/
theorem Session.current_fileChanged {s : Session} {dir : Path}
    (hdir : s.plugin.directory = some dir) (hresolved : Path.IsResolved dir)
    {changed resolved : Path}
    (hchanged : Path.resolve s.files.currentPath changed = .ok resolved)
    (hbelow : Path.AtOrBelow dir resolved) : (s.next (.fileChanged changed)).Current := by
  -- both paths are resolved, so comparing their texts finds what lies below
  have hwithin := Path.within_of_atOrBelow hresolved
    (Path.isResolved_of_resolve s.files.isAbsolute_of_mem_currentPath hchanged) hbelow
  have hreact : (Watcher.react ⟨s.plugin.directory⟩ s.files.currentPath s.plugin.registry
      changed).registry = s.plugin.registry.invalidate := by
    unfold Watcher.react
    simp only [hdir, hchanged]
    show (if Path.within resolved dir then _ else _ : Reaction).registry = _
    rw [if_pos hwithin]
  show Registry.Current (Watcher.react ⟨s.plugin.directory⟩ _ s.plugin.registry changed).registry _
  rw [hreact]
  exact Registry.current_of_nothing_cached Registry.cached_invalidate

/-! ## As newly built -/

/-- What a plugin that keeps nothing answers: a template is checked, the partials of the resolved
directory are loaded, and the module has both. -/
def afresh (plugin : Plugin) (dir : Path) (provider : TemplateProvider) (id code : String) :
    Except Error (Option String) :=
  if !plugin.extension.matches? id.toList then .ok none
  else
    match checkTemplate id code plugin.options with
    | .error e => .error e
    | .ok target =>
      match Registry.loaded provider dir plugin.extension plugin.options with
      | .error e => .error e
      | .ok partials => .ok (some (Module.text ⟨target, partials, plugin.guarded⟩))

/-- The answer depends on the settings only. -/
theorem SameSettings.afresh_eq {a b : Plugin} (h : a.SameSettings b) (dir : Path)
    (provider : TemplateProvider) (id code : String) :
    a.afresh dir provider id code = b.afresh dir provider id code := by
  unfold afresh
  rw [h.extension, h.options, h.guarded]

/-- A plugin that is up to date answers as if it kept nothing. -/
theorem transform_eq_afresh {plugin : Plugin} {provider : TemplateProvider} {dir : Path}
    (hcurrent : plugin.registry.Current provider) (hdir : plugin.directory = some dir)
    (hresolve : resolvePath provider.current dir = .ok dir) (id code : String) :
    (plugin.transform provider id code).1 = plugin.afresh dir provider id code := by
  unfold transform afresh
  split
  · rfl
  · -- the check keeps no list, so the lookup behind it finds the registry up to date as well
    have hcheck := hcurrent.check id code plugin.options
    rw [hdir]
    have hchecked : (plugin.registry.check id code plugin.options).1 =
        checkTemplate id code plugin.options := rfl
    rcases h : plugin.registry.check id code plugin.options with ⟨checked, registry⟩
    rw [h] at hcheck hchecked
    simp only at hcheck hchecked
    rw [← hchecked]
    cases checked with
    | error e => rfl
    | ok target =>
      simp only
      rw [Registry.get_of_resolve hresolve,
        ← hcheck.getResolved_fst plugin.extension dir plugin.options]
      rcases registry.getResolved provider plugin.extension dir plugin.options with
        ⟨answer, registry'⟩
      cases answer <;> rfl

/-- A module is made of the source, the partials that are there, and the settings. The name of the
template takes no part. -/
theorem text_of_afresh {plugin : Plugin} {provider : TemplateProvider} {dir : Path}
    {id code text : String} (h : plugin.afresh dir provider id code = .ok (some text)) :
    ∃ partials, Registry.loaded provider dir plugin.extension plugin.options = .ok partials ∧
      text = Module.text ⟨⟨code, plugin.options⟩, partials, plugin.guarded⟩ := by
  unfold afresh at h
  split at h
  · cases h
  · cases hcheck : checkTemplate id code plugin.options with
    | error e =>
      rw [hcheck] at h
      cases h
    | ok target =>
      have htarget := (checkTemplate_eq_ok_iff.1 hcheck).2
      -- an answer means that the target was accepted and the partials were loaded
      cases hloaded : Registry.loaded provider dir plugin.extension plugin.options with
      | error e =>
        rw [hcheck, hloaded] at h
        cases h
      | ok partials =>
        rw [hcheck, hloaded] at h
        cases h
        exact ⟨partials, rfl, by rw [htarget]⟩

def built (options : PluginOptions) (dir : Path) (page : PageOptions) : Plugin where
  extension := .configured options.templateFileExtension
  directory := some dir
  guarded := options.optimizePartialRegistration
  options := options.compileOptions
  page := page

/-- A plugin can be built if its directory resolves; it keeps the directory in its resolved form. -/
theorem create_eq_ok {current : Option Path} {options : PluginOptions} {path : String} {dir : Path}
    (hpath : options.partialsDirectoryPath = some path) (hnonempty : path ≠ "")
    (hresolve : Path.resolve current path.toList = .ok dir) (page : PageOptions) :
    Plugin.create current options page = .ok (built options dir page) := by
  have hchars : path.toList ≠ [] := by
    rwa [Ne, String.toList_eq_nil_iff]
  unfold create
  simp only [hpath, Option.map_some, Option.filter_some, hchars, ne_eq, not_false_eq_true,
    decide_true, if_true, resolvePath_eq_ok_iff.2 hresolve]
  rfl

/-- A plugin that was built keeps nothing, and has the directory that is to be one in its resolved
form. -/
theorem create_cases {current : Option Path} {options : PluginOptions} {page : PageOptions}
    {plugin : Plugin} (h : Plugin.create current options page = .ok plugin) :
    (options.partialsDirectoryPath.getD "" = "" ∧ plugin.directory = none ∨
      ∃ path dir, options.partialsDirectoryPath = some path ∧ path ≠ "" ∧
        Path.resolve current path.toList = .ok dir ∧ plugin.directory = some dir) ∧
    plugin = {
      extension := .configured options.templateFileExtension
      directory := plugin.directory
      guarded := options.optimizePartialRegistration
      options := options.compileOptions
      page } := by
  cases hpath : options.partialsDirectoryPath with
  | none =>
    unfold create at h
    rw [hpath] at h
    cases h
    exact ⟨.inl ⟨rfl, rfl⟩, rfl⟩
  | some path =>
    by_cases hempty : path = ""
    · unfold create at h
      rw [hpath, hempty] at h
      cases h
      exact ⟨.inl ⟨hempty, rfl⟩, rfl⟩
    · -- a path that does not resolve is an error, so no plugin is built
      cases hresolve : resolvePath current path.toList with
      | ok dir =>
        have hresolve := resolvePath_eq_ok_iff.1 hresolve
        rw [create_eq_ok hpath hempty hresolve] at h
        cases h
        exact ⟨.inr ⟨path, dir, rfl, hempty, hresolve, rfl⟩, rfl⟩
      | error e =>
        have hchars : path.toList ≠ [] := by
          rwa [Ne, String.toList_eq_nil_iff]
        unfold create at h
        simp only [hpath, Option.map_some, Option.filter_some, hchars, ne_eq, not_false_eq_true,
          decide_true, if_true, hresolve] at h
        cases h

/-- What pages are rendered with takes no part in building a plugin. -/
theorem create_page {current : Option Path} {options : PluginOptions} {page : PageOptions}
    {plugin : Plugin} (h : Plugin.create current options page = .ok plugin) (other : PageOptions) :
    Plugin.create current options other = .ok { plugin with page := other } := by
  -- page options are put into the plugin as they are; they do not decide whether it is built
  obtain ⟨⟨hpath, hnone⟩ | ⟨path, dir, hpath, hnonempty, hresolve, hsome⟩, hplugin⟩ :=
    create_cases h
  · rw [hplugin, hnone]
    unfold create
    cases hempty : options.partialsDirectoryPath with
    | none => rfl
    | some path =>
      rw [hempty] at hpath
      cases hpath
      rfl
  · rw [hplugin, hsome]
    exact create_eq_ok hpath hnonempty hresolve other

/-- A run up to a moment without changes since the last notice ends up to date. -/
theorem Session.current_of_notified {start : Session} {dir : Path} (hstart : start.Current)
    (hdir : start.plugin.directory = some dir) (hresolved : Path.IsResolved dir)
    {steps : List Step} (hnotified : Notified dir start steps) : (start.run steps).Current := by
  -- up to date from the start on, or from the notice on
  rcases hnotified with hquiet | ⟨before, changed, after, rfl, hquiet, resolved, hchanged, hbelow⟩
  · exact hstart.run hquiet
  · rw [run_append]
    have hkept : (start.run before).plugin.directory = some dir := by
      rw [(start.sameSettings_run before).directory, hdir]
    exact (current_fileChanged hkept hresolved hchanged hbelow).run hquiet

/-- **No stale partials.** A plugin is built, and its partials directory resolves to `dir`. Let the
files not have changed since, or not since the last notice of a path that resolves to `dir` or below
it. Then a template is transformed as by any plugin that is built now with the same options and
resolves the directory to `dir`, and such a plugin can be built from where the directory resolves
so. A module that is answered holds the source, the partials that loading the present files gives,
and what the options say: neither the name of the template nor what happened before takes part. -/
theorem transform_as_newly_built {files : FileSystem} {options : PluginOptions} {page : PageOptions}
    {path : String} {dir : Path} {plugin : Plugin}
    (hpath : options.partialsDirectoryPath = some path) (hnonempty : path ≠ "")
    (hresolve : Path.resolve files.currentPath path.toList = .ok dir)
    (hcreate : Plugin.create files.currentPath options page = .ok plugin) {steps : List Step}
    (hnotified : Notified dir ⟨plugin, files⟩ steps) (id code : String) :
    let now := Session.run ⟨plugin, files⟩ steps
    let answer := (now.plugin.transform now.files.provider id code).1
    (∀ current, Path.resolve current path.toList = .ok dir → ∀ newPage,
      ∃ fresh, Plugin.create current options newPage = .ok fresh ∧
        answer = (fresh.transform now.files.provider id code).1) ∧
    ∀ text, answer = .ok (some text) → ∃ partials,
      Registry.loaded now.files.provider dir (.configured options.templateFileExtension)
        options.compileOptions = .ok partials ∧
      text = Module.text
        ⟨⟨code, options.compileOptions⟩, partials, options.optimizePartialRegistration⟩ := by
  intro now answer
  rw [create_eq_ok hpath hnonempty hresolve] at hcreate
  cases hcreate
  -- the directory has been resolved already, and resolving it once more changes nothing
  have hresolved : Path.IsResolved dir :=
    Path.isResolved_of_resolve files.isAbsolute_of_mem_currentPath hresolve
  have hagain : resolvePath now.files.provider.current dir = .ok dir :=
    resolvePath_eq_ok_iff.2 (hresolved.resolve_eq _)
  have hempty : Session.Current ⟨built options dir page, files⟩ :=
    Registry.current_of_nothing_cached Registry.cached_empty
  have hcurrent : now.Current :=
    Session.current_of_notified hempty rfl hresolved hnotified
  have hsettings := Session.sameSettings_run ⟨built options dir page, files⟩ steps
  have hanswer := (transform_eq_afresh hcurrent hsettings.directory hagain id code).trans
    (hsettings.afresh_eq dir now.files.provider id code)
  refine ⟨fun current hcurrent newPage => ⟨_, create_eq_ok hpath hnonempty hcurrent newPage, ?_⟩,
    fun text htext => ?_⟩
  · rw [transform_eq_afresh (Registry.current_of_nothing_cached Registry.cached_empty) rfl hagain]
    exact hanswer
  · have hloaded := text_of_afresh (hanswer.symm.trans htext)
    exact hloaded

/-- A partial is changed after it was loaded, and the notice spells its directory otherwise: the
next module has the new text. -/
theorem transform_of_changed_site :
    let options : PluginOptions := { partialsDirectoryPath := some "site/." }
    let now := Session.run ⟨built options "/site".toList {}, Registry.siteWith (some "x")⟩
      [.transform "b.hbs" "y", .change (Registry.siteWith (some "z")),
        .fileChanged "/old/../site//a.hbs".toList, .renderPage "<p></p>"]
    (now.plugin.transform now.files.provider "b.hbs" "y").1 =
      .ok (some (Module.text ⟨⟨"y", {}⟩, ⟨[("a", ⟨"z", {}⟩)]⟩, false⟩)) := by
  intro options now
  -- the change is reported by another spelling, after which no file changes
  have hnotified : Notified "/site".toList
      ⟨built options "/site".toList {}, Registry.siteWith (some "x")⟩
      [.transform "b.hbs" "y", .change (Registry.siteWith (some "z")),
        .fileChanged "/old/../site//a.hbs".toList, .renderPage "<p></p>"] :=
    .inr ⟨[_, _], _, [_], rfl, by simp [Step.isChange], "/site/a.hbs".toList, rfl, by decide⟩
  have hcreate : Plugin.create (Registry.siteWith (some "x")).currentPath options {} =
      .ok (built options "/site".toList {}) := rfl
  have h := transform_as_newly_built rfl (by decide) rfl hcreate hnotified "b.hbs" "y"
  obtain ⟨fresh, hfresh, hanswer⟩ := h.1 (some "/".toList) rfl {}
  cases hfresh
  exact hanswer.trans rfl

end Plugin

end Stencil
