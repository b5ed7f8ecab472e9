import Stencil.Proofs.Path.Below

/-!
# Collapsing a path in parts

The components of two paths, one after the other, collapse to what the two collapse to, put together:
the second one climbs over as many names of the first as it starts with `..`
(`foldl_push_eq_append`). So a joined path collapses to the two collapsed paths put together
(`lexical_join`). Where there is no `..`, nothing collapses (`components_collapse_of_no_up`), and neither
does it where all `..` stand in front (`components_collapse_eq_iff`).

* **`collapse_normal_form`**: what collapsing gives, and that it does not matter when it is done.
-/

namespace Stencil.Path

namespace Lexical

/-- The second path seen from the first. What climbs over more names than there are climbs on above a
relative path, and stays at the root. -/
def append (p q : Lexical) : Lexical :=
  if q.absolute then q
  else {
    absolute := p.absolute
    ups := if p.absolute then p.ups else p.ups + (q.ups - p.names.length)
    names := p.names.take (p.names.length - q.ups) ++ q.names }

/-- A relative path starts where the other ends: its `..` take names back, and those left over add
up. -/
theorem append_of_relative (p : Lexical) {q : Lexical} (h : q.absolute = false) :
    p.append q = {
      absolute := p.absolute
      ups := if p.absolute then p.ups else p.ups + (q.ups - p.names.length)
      names := p.names.take (p.names.length - q.ups) ++ q.names } := by
  unfold append
  rw [if_neg (by simp [h])]

/-- An absolute path starts over. -/
theorem append_of_absolute (p : Lexical) {q : Lexical} (h : q.absolute = true) : p.append q = q :=
  if_pos h

@[simp] theorem append_empty (p : Lexical) : p.append empty = p := by
  have hnames : p.names.take (p.names.length - 0) ++ [] = p.names := by simp
  rw [append_of_relative p rfl]
  obtain ⟨absolute, ups, names⟩ := p
  simp only [empty, Nat.zero_sub, Nat.add_zero, ite_self]
  simp only at hnames
  rw [hnames]

theorem absolute_push_of_absolute {q : Lexical} (h : q.absolute = true) (c : Component) :
    (q.push c).absolute = true := by
  cases c with
  | root => rfl
  | here => exact h
  | name text => exact h
  | up =>
    rw [push_up]
    split <;> exact h

/-- With a name to take back, `..` takes it. -/
theorem push_up_of_ne_nil {q : Lexical} (h : q.names ≠ []) :
    q.push .up = { q with names := q.names.dropLast } := by
  rw [push_up, if_pos h]

/-- Without one, a relative path counts one more `..`. -/
theorem push_up_of_nil {q : Lexical} (habs : q.absolute = false) (h : q.names = []) :
    q.push .up = { q with ups := q.ups + 1 } := by
  rw [push_up, if_neg (by simp [h]), if_neg (by simp [habs])]

/-- One more `..` takes a name of the second path, or else one of the first, if one is left there. -/
theorem append_push_up (p : Lexical) {q : Lexical} (habs : q.absolute = false) :
    p.append (q.push .up) = (p.append q).push .up := by
  have habs' : (q.push .up).absolute = false := by
    rw [push_up]
    split
    · exact habs
    · split <;> exact habs
  rw [append_of_relative p habs', append_of_relative p habs]
  -- `..` after the names of `q` takes one of them; before them it goes on into those of `p`
  by_cases hnames : q.names = []
  · rw [push_up_of_nil habs hnames]
    simp only [hnames, List.append_nil]
    by_cases hleft : q.ups < p.names.length
    · have hne : p.names.take (p.names.length - q.ups) ≠ [] := by
        rw [← List.length_pos_iff, List.length_take]
        omega
      have hlast : (p.names.take (p.names.length - q.ups)).dropLast =
          p.names.take (p.names.length - (q.ups + 1)) := by
        rw [List.dropLast_eq_take, List.take_take, List.length_take]
        congr 1
        omega
      have hups : q.ups + 1 - p.names.length = q.ups - p.names.length := by omega
      rw [push_up_of_ne_nil hne, hlast, hups]
    · -- the names of `p` are used up, so the `..` stays if the path is relative
      have hnone : p.names.length - q.ups = 0 := by omega
      have hnone' : p.names.length - (q.ups + 1) = 0 := by omega
      have hups : q.ups + 1 - p.names.length = q.ups - p.names.length + 1 := by omega
      rw [hnone, hnone', hups, List.take_zero, push_up]
      cases p.absolute <;> rfl
  · have hne : p.names.take (p.names.length - q.ups) ++ q.names ≠ [] := by simp [hnames]
    rw [push_up_of_ne_nil hnames, push_up_of_ne_nil hne, List.dropLast_append_of_ne_nil hnames]

/-- One more component goes to the second path. -/
theorem append_push (p q : Lexical) (c : Component) :
    p.append (q.push c) = (p.append q).push c := by
  cases habs : q.absolute with
  | true =>
    rw [append_of_absolute p habs, append_of_absolute p (absolute_push_of_absolute habs c)]
  | false =>
    -- `..` is the one component that may reach across into `p`
    cases c with
    | root => exact append_of_absolute p rfl
    | here => rfl
    | up => exact append_push_up p habs
    | name text =>
      have habs' : (q.push (.name text)).absolute = false := habs
      rw [append_of_relative p habs, append_of_relative p habs', push_name, push_name,
        List.append_assoc]

/-- Pushing components onto a composed path is composing with the path they are pushed onto. -/
theorem foldl_push_append (p q : Lexical) (cs : List Component) :
    cs.foldl push (p.append q) = p.append (cs.foldl push q) := by
  induction cs generalizing q with
  | nil => rfl
  | cons c rest ih => rw [List.foldl_cons, List.foldl_cons, ← append_push, ih]

/-- Components behind a collapsed path collapse by themselves first. -/
theorem foldl_push_eq_append (p : Lexical) (cs : List Component) :
    cs.foldl push p = p.append (ofComponents cs) := by
  unfold ofComponents
  rw [← foldl_push_append, append_empty]

/-- Names stay as they are. -/
theorem parts_foldl_push (p : Lexical) {cs : List Component} (h : ∀ c ∈ cs, ∃ name, c = .name name) :
    (cs.foldl push p).parts = p.parts ++ cs := by
  induction cs generalizing p with
  | nil => rw [List.append_nil]; rfl
  | cons c rest ih =>
    obtain ⟨name, rfl⟩ := h c List.mem_cons_self
    rw [List.foldl_cons, ih _ fun other hother => h other (List.mem_cons_of_mem _ hother), push_name]
    unfold parts
    simp

end Lexical

/-- The collapsed path has the parts of the lexical form as components. -/
theorem components_collapse (p : Path) : components (collapse p) = (lexical p).parts :=
  components_toPath (normal_lexical p)

/-- An absolute path without `..` has its components from the start. -/
theorem components_collapse_of_no_up {p : Path} (h : isAbsolute p = true)
    (hup : .up ∉ components p) : components (collapse p) = components p := by
  have hp : components p = .root :: componentsOf (segments p) := if_pos h
  rw [hp] at hup
  have hnames : ∀ c ∈ componentsOf (segments p), ∃ name, c = .name name := by
    intro c hc
    obtain rfl | hname := cases_of_mem_componentsOf hc
    · exact absurd (List.mem_cons_of_mem _ hc) hup
    · exact hname
  rw [components_collapse, lexical, Lexical.ofComponents, hp, List.foldl_cons,
    Lexical.parts_foldl_push _ hnames]
  rfl

/-- What an absolute path collapses to is the root with names behind it. -/
theorem components_collapse_of_isAbsolute {p : Path} (h : isAbsolute p = true) :
    components (collapse p) = .root :: (lexical p).names.map .name := by
  have habs : (lexical p).absolute = true := (absolute_lexical p).trans h
  rw [components_collapse, Lexical.parts, habs, (normal_lexical p).rooted habs]
  rfl

/-! ## Joined paths -/

namespace Lexical

theorem empty_append (q : Lexical) : empty.append q = q := by
  obtain ⟨absolute, ups, names⟩ := q
  cases absolute with
  | true => exact append_of_absolute empty rfl
  | false =>
    rw [append_of_relative empty rfl]
    simp [empty]

end Lexical

/-- The pieces of a relative path collapse to what the path does: a leading `.` says nothing. -/
theorem ofComponents_componentsOf {p : Path} (h : isAbsolute p = false) :
    Lexical.ofComponents (componentsOf (segments p)) = lexical p := by
  unfold lexical
  obtain ⟨habs, -⟩ | ⟨-, rest, hrest, hp⟩ | ⟨-, -, hp⟩ := components_cases p
  · rw [h] at habs
    cases habs
  · rw [hp, hrest, componentsOf_cons_of_isIdle rfl]
    rfl
  · rw [hp]

/-- A joined path collapses to the two collapsed paths put together. -/
theorem lexical_join (base p : Path) : lexical (join base p) = (lexical base).append (lexical p) := by
  cases habs : isAbsolute p with
  | true =>
    have hjoin : join base p = p := if_pos (.inl habs)
    rw [hjoin, Lexical.append_of_absolute _ ((absolute_lexical p).trans habs)]
  | false =>
    by_cases hbase : base = []
    · have hjoin : join base p = p := if_pos (.inr hbase)
      rw [hjoin, hbase]
      exact (Lexical.empty_append _).symm
    · -- the components of `p` are pushed after those of the base, which is composing the two
      have hparts : lexical (join base p) =
          (componentsOf (segments p)).foldl Lexical.push (lexical base) := by
        unfold lexical Lexical.ofComponents
        rw [components_join hbase habs, List.foldl_append]
      rw [hparts, Lexical.foldl_push_eq_append, ofComponents_componentsOf habs]

/-- Collapsing loses nothing that the lexical form keeps. -/
theorem lexical_collapse (p : Path) : lexical (collapse p) = lexical p :=
  lexical_toPath (normal_lexical p)

theorem components_name {name : List Char} (h : IsName name) : components name = [.name name] := by
  have hpiece : components (joined [name]) = componentsOf [name] :=
    components_joined (by simpa using h.noSlash) (by simpa using h.notIdle)
  have hname : componentsOf [name] = [.name name] := by
    simpa using componentsOf_pieces 0 (by simpa using h : ∀ other ∈ [name], IsName other)
  exact hpiece.trans hname

/-- A name that is joined goes behind the names that are there, and `..` takes it away again. -/
theorem lexical_join_name_up (p : Path) {name : List Char} (h : IsName name) :
    lexical (join (join p name) ['.', '.']) = lexical p := by
  have hsingle : lexical name = Lexical.ofComponents [.name name] := by
    rw [lexical, components_name h]
  have hname : lexical (join p name) = (lexical p).push (.name name) := by
    rw [lexical_join, hsingle, ← Lexical.foldl_push_eq_append]
    rfl
  have hup : lexical ['.', '.'] = Lexical.ofComponents [.up] := rfl
  rw [lexical_join, hname, hup, ← Lexical.foldl_push_eq_append]
  exact Lexical.push_name_up (lexical p) name

/-! ## The normal form -/

/-- In normal form: no `.`, and no `..` but in a run at the front. Behind the root there is none. -/
structure IsCollapsed (cs : List Component) : Prop where
  noHere : .here ∉ cs
  upsInFront : ∃ ups rest, cs = List.replicate ups .up ++ rest ∧ .up ∉ rest

/-- A collapsed list of components that starts at the root has no `..`. -/
theorem IsCollapsed.up_not_mem {cs : List Component} (h : IsCollapsed (.root :: cs)) :
    .up ∉ Component.root :: cs := by
  obtain ⟨ups, rest, hcs, hrest⟩ := h.upsInFront
  cases ups with
  | zero =>
    rw [hcs]
    exact hrest
  | succ ups =>
    rw [List.replicate_succ, List.cons_append] at hcs
    cases hcs

/-- The parts of a normal form are its `..`, if it is relative, and then its names. -/
theorem Lexical.Normal.isCollapsed {p : Lexical} (h : p.Normal) : IsCollapsed p.parts := by
  obtain ⟨absolute, ups, names⟩ := p
  have hnames : .up ∉ names.map Component.name := by simp
  cases absolute with
  | true =>
    have hups : ups = 0 := h.rooted rfl
    subst hups
    exact ⟨by simp [parts], 0, _, rfl, by simp⟩
  | false => exact ⟨by simp [parts], ups, names.map .name, rfl, hnames⟩

/-- The components of a collapsed path are in collapsed form. -/
theorem isCollapsed_collapse (p : Path) : IsCollapsed (components (collapse p)) := by
  rw [components_collapse]
  exact (normal_lexical p).isCollapsed

/-- Just the paths in normal form keep their components. -/
theorem components_collapse_eq_iff (p : Path) :
    components (collapse p) = components p ↔ IsCollapsed (components p) := by
  refine ⟨fun h => h ▸ isCollapsed_collapse p, fun h => ?_⟩
  obtain ⟨habs, hp⟩ | ⟨-, rest, -, hp⟩ | ⟨-, -, hp⟩ := components_cases p
  · refine components_collapse_of_no_up habs ?_
    rw [hp] at h ⊢
    exact h.up_not_mem
  · have hhere := h.noHere
    rw [hp] at hhere
    exact absurd List.mem_cons_self hhere
  · obtain ⟨ups, rest, hcs, hrest⟩ := h.upsInFront
    -- behind the run there are nothing but names
    have hnames : ∀ c ∈ rest, ∃ name, c = .name name := by
      intro c hc
      have hmem : c ∈ componentsOf (segments p) := by
        rw [← hp, hcs]
        exact List.mem_append_right _ hc
      obtain rfl | hname := cases_of_mem_componentsOf hmem
      · exact absurd hc hrest
      · exact hname
    have hrun : (List.replicate ups Component.up).foldl Lexical.push Lexical.empty =
        ⟨false, ups, []⟩ := by
      rw [Lexical.empty, Lexical.foldl_push_ups, Nat.zero_add]
    rw [components_collapse, lexical, Lexical.ofComponents, hcs, List.foldl_append, hrun,
      Lexical.parts_foldl_push _ hnames]
    simp [Lexical.parts]

/-- **Collapsing gives a normal form, which fits with joining.** A collapsed path is absolute just if the
path is. It has no `.`, and `..` only in a run at the front, never behind the root. Paths of this form
keep their components, and collapsing once more changes nothing; `..` behind a name takes the name away.
Of two joined paths either may be collapsed before they are joined. -/
theorem collapse_normal_form (p : Path) :
    isAbsolute (collapse p) = isAbsolute p ∧
    IsCollapsed (components (collapse p)) ∧
    (isAbsolute p = true → .up ∉ components (collapse p)) ∧
    (components (collapse p) = components p ↔ IsCollapsed (components p)) ∧
    collapse (collapse p) = collapse p ∧
    (∀ name, IsName name → collapse (join (join p name) ['.', '.']) = collapse p) ∧
    ∀ base, collapse (join base p) = collapse (join base (collapse p)) ∧
      collapse (join base p) = collapse (join (collapse base) p) := by
  have habs : isAbsolute (collapse p) = isAbsolute p :=
    (isAbsolute_toPath (normal_lexical p)).trans (absolute_lexical p)
  refine ⟨habs, isCollapsed_collapse p, fun hp => ?_, components_collapse_eq_iff p, ?_,
    fun name hname => ?_, fun base => ⟨?_, ?_⟩⟩
  · have hform := isCollapsed_collapse p
    rw [components_of_isAbsolute (habs.trans hp)] at hform ⊢
    exact hform.up_not_mem
  · exact congrArg Lexical.toPath (lexical_collapse p)
  · exact congrArg Lexical.toPath (lexical_join_name_up p hname)
  · -- both joining laws say that composing does not see whether a part was collapsed
    unfold collapse
    rw [lexical_join, lexical_join, ← collapse, lexical_collapse]
  · unfold collapse
    rw [lexical_join, lexical_join, ← collapse, lexical_collapse]

/-- A path that leaves the root, goes in and out, and climbs above where it is joined to. -/
theorem normal_form_of_site :
    .up ∉ components (collapse "/../site//views/./../partials".toList) ∧
    collapse (join (join "/../site//views/./../partials".toList "old".toList) "..".toList) =
      "/site/partials".toList ∧
    IsCollapsed (components "../shared".toList) ∧
    collapse (join "a/b".toList "./x/../../../..//shared".toList) = "../shared".toList ∧
    collapse (join "a/b".toList (collapse "./x/../../../..//shared".toList)) =
      "../shared".toList := by
  -- the laws bring each path to one whose form is decided
  have hname : IsName "old".toList := ⟨rfl, by decide, by decide⟩
  obtain ⟨-, -, hroot, -, -, hup, -⟩ := collapse_normal_form "/../site//views/./../partials".toList
  obtain ⟨-, -, -, hkept, -⟩ := collapse_normal_form "../shared".toList
  obtain ⟨-, -, -, -, -, -, hjoin⟩ := collapse_normal_form "./x/../../../..//shared".toList
  exact ⟨hroot rfl, (hup _ hname).trans (by decide), hkept.1 (by decide), by decide,
    (hjoin _).1.symm.trans (by decide)⟩

end Stencil.Path
