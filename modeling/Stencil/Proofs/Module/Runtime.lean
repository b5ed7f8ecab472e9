import Mathlib.Data.Finmap
import Stencil.Partials.Checked
import Stencil.Proofs.Module.Reading
import Stencil.Proofs.Page.Outcome
import Stencil.Proofs.Partials.Memo

/-!
# What modules leave registered

The runtime that executes modules keeps a map from names to templates. A registration binds its
name, and a guarded one leaves a name alone that is bound. If the names of a list of partials are
different, neither order nor guards matter: a runtime that has nothing but bindings of the list
takes all of them over from any module of the list (`lookup_load_text`), and a page renderer binds
the same (`consumers_bind_alike`).
-/

namespace Stencil

/-- The partials that a runtime has, by name. -/
abbrev Runtime := Finmap fun _ : String => CheckedTemplate

namespace Runtime

/-! ## Executing modules -/

/-- A registration; it is skipped if a name is tested that is bound. -/
def execute (runtime : Runtime) (s : Module.Statement) : Runtime :=
  match s.tested with
  | some tested => if tested ∈ runtime then runtime else runtime.insert s.name s.template
  | none => runtime.insert s.name s.template

def load (runtime : Runtime) (text : String) : Option Runtime :=
  (Module.read? text).map fun listing => listing.statements.foldl execute runtime

def loadAll (runtime : Runtime) (texts : List String) : Option Runtime := texts.foldlM load runtime

/-! ## One registration -/

theorem lookup_insert (runtime : Runtime) (name : String) (t : CheckedTemplate) (other : String) :
    (runtime.insert name t).lookup other = if other = name then some t else runtime.lookup other := by
  split
  · rename_i heq
    rw [heq, Finmap.lookup_insert]
  · rename_i hne
    rw [Finmap.lookup_insert_of_ne _ hne]

/-- A registration of a name that is not bound otherwise binds it, guarded or not, and changes
nothing else. -/
theorem lookup_execute {runtime : Runtime} {name : String} {t : CheckedTemplate}
    (h : runtime.lookup name = none ∨ runtime.lookup name = some t) (guarded : Bool)
    (other : String) :
    (execute runtime (Module.statement guarded name t)).lookup other =
      if other = name then some t else runtime.lookup other := by
  have hinsert := runtime.lookup_insert name t other
  cases guarded with
  | false => exact hinsert
  | true =>
    -- skipped only where the name is bound, and then it is bound to the same template
    show (if name ∈ runtime then runtime else runtime.insert name t).lookup other = _
    split
    · rename_i hbound
      rw [← Finmap.lookup_isSome] at hbound
      split
      · rename_i heq
        rcases h with h | h
        · rw [h] at hbound
          cases hbound
        · rw [heq, h]
      · rfl
    · exact hinsert

/-! ## One module -/

/-- All registrations of a list with different names bind these, if the runtime binds none of them
otherwise. -/
theorem lookup_foldl_execute {runtime : Runtime} {entries : List (String × CheckedTemplate)}
    (hnodup : (entries.map Prod.fst).Nodup)
    (h : ∀ entry ∈ entries,
      runtime.lookup entry.1 = none ∨ runtime.lookup entry.1 = some entry.2)
    (guarded : Bool) (name : String) :
    ((entries.map fun (name, t) => Module.statement guarded name t).foldl execute
      runtime).lookup name =
      (entries.lookup name).or (runtime.lookup name) := by
  induction entries generalizing runtime with
  | nil => rfl
  | cons entry rest ih =>
    obtain ⟨hfresh, hrest⟩ := List.nodup_cons.1 hnodup
    have hstep := lookup_execute (h entry List.mem_cons_self) guarded
    -- the names still to come are others, so they are bound as before
    have hothers : ∀ other ∈ rest,
        (execute runtime (Module.statement guarded entry.1 entry.2)).lookup other.1 = none ∨
          (execute runtime (Module.statement guarded entry.1 entry.2)).lookup other.1 =
            some other.2 := by
      intro other hother
      have hne : other.1 ≠ entry.1 := by
        intro heq
        exact hfresh (heq ▸ List.mem_map_of_mem hother)
      rw [hstep, if_neg hne]
      exact h other (List.mem_cons_of_mem entry hother)
    rw [List.map_cons, List.foldl_cons, ih hrest hothers, hstep, List.lookup_cons]
    by_cases heq : name = entry.1
    · have hnone : rest.lookup name = none := lookup_eq_none_iff_not_mem.2 (heq ▸ hfresh)
      rw [if_pos heq, beq_iff_eq.2 heq, hnone]
      rfl
    · rw [if_neg heq, beq_false_of_ne heq]

/-- Every binding of the runtime is one of the list. -/
def Fits (partials : PartialList) (runtime : Runtime) : Prop :=
  ∀ name t, runtime.lookup name = some t → partials.get? name = some t

/-- A fresh runtime holds nothing that could differ from the partials. -/
theorem fits_empty (partials : PartialList) : Fits partials ∅ := by
  intro name t h
  rw [Finmap.lookup_empty] at h
  cases h

/-- A module takes a runtime that has only bindings of its list to one that has all of them. -/
theorem lookup_load_text {m : Module} {runtime : Runtime} (hnodup : m.partials.names.Nodup)
    (hfits : Fits m.partials runtime) :
    ∃ after, load runtime m.text = some after ∧
      ∀ name, after.lookup name = m.partials.get? name := by
  have hbound : ∀ entry ∈ m.partials.entries,
      runtime.lookup entry.1 = none ∨ runtime.lookup entry.1 = some entry.2 := by
    intro entry hentry
    cases hlookup : runtime.lookup entry.1 with
    | none => exact .inl rfl
    | some t =>
      have hget := hfits entry.1 t hlookup
      rw [PartialList.get?_of_mem hnodup hentry] at hget
      exact .inr hget.symm
  refine ⟨m.listing.statements.foldl execute runtime, ?_, fun name => ?_⟩
  · unfold load
    rw [m.read?_text]
    rfl
  · have hlookup := lookup_foldl_execute hnodup hbound m.guarded name
    rw [Module.listing, hlookup]
    show (m.partials.get? name).or (runtime.lookup name) = m.partials.get? name
    -- a name that the list does not have was not bound before either
    cases hget : m.partials.get? name with
    | some t => rfl
    | none =>
      cases hname : runtime.lookup name with
      | none => rfl
      | some t =>
        rw [hfits name t hname] at hget
        cases hget

/-! ## Any number of modules -/

/-- Once the bindings of the list are there, further modules change nothing. -/
theorem loadAll_complete {partials : PartialList} {runtime : Runtime}
    (hnodup : partials.names.Nodup)
    (hcomplete : ∀ name, runtime.lookup name = partials.get? name) {modules : List Module}
    (h : ∀ m ∈ modules, m.partials = partials) :
    loadAll runtime (modules.map Module.text) = some runtime := by
  -- by the modules: each finds all of its names bound already and leaves the runtime as it is
  induction modules with
  | nil => rfl
  | cons m rest ih =>
    have hm : m.partials = partials := h m List.mem_cons_self
    have hfits : Fits m.partials runtime := by
      intro name t hlookup
      rw [hm, ← hcomplete, hlookup]
    obtain ⟨after, hload, hlookup⟩ := lookup_load_text (by rwa [hm]) hfits
    have hsame : after = runtime := by
      refine Finmap.ext_lookup fun name => ?_
      rw [hlookup, hm, hcomplete]
    show (load runtime m.text).bind (loadAll · (rest.map Module.text)) = some runtime
    rw [hload, hsame]
    exact ih fun other hother => h other (List.mem_cons_of_mem m hother)

/-- **All who use a list of partials bind alike.** If the names are different, there is one map that
binds just them, each as the list looks it up. It is what modules of the list leave in a new
runtime, after each of them, with any targets, in any order and whether they are guarded or not. A
new page renderer that renders with the list has the same names bound to the same sources; this
takes of the templates what was checked of them, that their sources are accepted. -/
theorem consumers_bind_alike {partials : PartialList} (hnodup : partials.names.Nodup) :
    ∃ runtime : Runtime,
      (∀ name, runtime.lookup name = partials.get? name) ∧
      (∀ name, name ∈ runtime ↔ name ∈ partials.names) ∧
      (∀ modules : List Module, (∀ m ∈ modules, m.partials = partials) →
        ∀ loaded, loaded <+: modules → loaded ≠ [] →
          loadAll ∅ (loaded.map Module.text) = some runtime) ∧
      ((∀ entry ∈ partials.entries,
          ∃ document, Template.Document.ofSource entry.2.source = .ok document) →
        ∀ (registry : Registry) (provider : TemplateProvider) (context : Option PageData)
          (request : PageRequest),
        (registry.get provider request.extension request.directory request.options).1 =
            .ok partials →
          let left := ({} : PageRenderer).render registry provider context request
          ∀ name,
            left.renderer.engine.source? name = (runtime.lookup name).map CheckedTemplate.source ∧
            (left.renderer.hasPartial name = true ↔ name ∈ partials.names)) := by
  obtain ⟨runtime, -, hlookup⟩ :=
    lookup_load_text (m := ⟨default, partials, false⟩) hnodup (fits_empty partials)
  refine ⟨runtime, hlookup, fun name => ?_, fun modules hmodules loaded hinitial hne => ?_,
    fun haccepted registry provider context request hget => ?_⟩
  · rw [← Finmap.lookup_isSome, hlookup, PartialList.mem_names_iff]
  · -- the first module fills the runtime, the others find everything bound
    cases loaded with
    | nil => exact absurd rfl hne
    | cons m rest =>
      have hloaded : ∀ other ∈ m :: rest, other.partials = partials := fun other hother =>
        hmodules other (hinitial.subset hother)
      have hm : m.partials = partials := hloaded m List.mem_cons_self
      obtain ⟨after, hload, hafter⟩ :=
        lookup_load_text (by rwa [hm]) (fits_empty m.partials)
      have hsame : after = runtime := by
        refine Finmap.ext_lookup fun name => ?_
        rw [hafter, hm, hlookup]
      show (load ∅ m.text).bind (loadAll · (rest.map Module.text)) = some runtime
      rw [hload, hsame]
      exact loadAll_complete hnodup hlookup fun other hother =>
        hloaded other (List.mem_cons_of_mem m hother)
  · -- a fresh renderer registers the same sources under the same names
    intro left name
    have hpartials := PageRenderer.partials_render {} registry provider context request hget
    obtain ⟨after, hafter⟩ := PageRenderer.registerPartials_of_accepted haccepted
      (Engine.configure {} request.options)
    have hsource : left.renderer.engine.source? name =
        (partials.get? name).map CheckedTemplate.source := by
      have hbound := PageRenderer.source?_registerPartials hafter name
      rw [hafter] at hpartials
      rw [Engine.source?_of_partials_eq hpartials, hbound]
      rfl
    refine ⟨?_, ?_⟩
    · rw [hsource, hlookup]
    · unfold PageRenderer.hasPartial
      rw [Engine.hasPartial_eq_isSome, hsource, Option.isSome_map, PartialList.mem_names_iff]

/-- A guarded module and an unguarded one of the same site, and a page of it. -/
theorem consumers_of_site :
    ∃ runtime : Runtime, runtime.lookup "a" = some ⟨"x", {}⟩ ∧ "b" ∉ runtime ∧
      loadAll ∅ ([⟨⟨"y", {}⟩, ⟨[("a", ⟨"x", {}⟩)]⟩, true⟩,
        ⟨⟨"z", {}⟩, ⟨[("a", ⟨"x", {}⟩)]⟩, false⟩].map Module.text) = some runtime ∧
      (({} : PageRenderer).render {} (Registry.siteWith (some "x")).provider none
        { html := "<p></p>", directory := some "/site".toList }).renderer.engine.source? "a" =
          some "x" := by
  have hnodup : (⟨[("a", ⟨"x", {}⟩)]⟩ : PartialList).names.Nodup := by decide
  obtain ⟨runtime, hlookup, hnames, hload, hrender⟩ := consumers_bind_alike hnodup
  have haccepted : ∀ entry ∈ [("a", (⟨"x", {}⟩ : CheckedTemplate))],
      ∃ document, Template.Document.ofSource entry.2.source = .ok document := by
    intro entry hentry
    rw [List.mem_singleton.1 hentry]
    exact ⟨_, rfl⟩
  have hfound : (Registry.get {} (Registry.siteWith (some "x")).provider .standard
      (some "/site".toList) {}).1 = .ok ⟨[("a", ⟨"x", {}⟩)]⟩ := rfl
  have hsource := (hrender haccepted {} (Registry.siteWith (some "x")).provider none
    { html := "<p></p>", directory := some "/site".toList } hfound "a").1
  rw [hlookup] at hsource
  refine ⟨runtime, hlookup "a", ?_, ?_, hsource⟩
  · rw [hnames]
    decide
  · exact hload _ (by simp) _ List.prefix_rfl (by simp)

end Runtime

end Stencil
