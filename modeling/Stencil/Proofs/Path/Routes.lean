import Mathlib.Data.List.Basic
import Stencil.Proofs.Path.Below

/-!
# Names below a resolved directory

A resolved path is the root with names behind it, and names that are joined to it one after the other
come behind these (`along_toPath`). So the path that they lead to is resolved and lies below the
directory, it says which names they were (`along_injective`), and the part of it below the directory
is the names with slashes between them (`below?_along`).
-/

namespace Stencil.Path

/-- The path that names lead to from a directory. -/
def along (base : Path) (names : List (List Char)) : Path := names.foldl join base

/-- What starts with a name does not start at the root. -/
theorem isAbsolute_joined {names : List (List Char)} (h : ∀ name ∈ names, IsName name) :
    isAbsolute (joined names) = false := by
  match names with
  | [] => rfl
  | [] :: _ =>
    have hidle := (h [] List.mem_cons_self).notIdle
    cases hidle
  | (c :: name) :: rest =>
    have hc : c ≠ '/' := fun hc => (h (c :: name) List.mem_cons_self).noSlash
      (hc ▸ List.mem_cons_self)
    cases rest <;> simpa [joined, isAbsolute] using hc

/-- A resolved path is the root with names behind it. -/
theorem IsResolved.exists_names {p : Path} (h : IsResolved p) :
    ∃ names : List (List Char), (∀ name ∈ names, IsName name) ∧
      p = (⟨true, 0, names⟩ : Lexical).toPath := by
  obtain ⟨⟨absolute, ups, names⟩, hform, hroot, rfl⟩ := h
  cases hroot
  cases hform.rooted rfl
  exact ⟨names, hform.names, rfl⟩

theorem isResolved_toPath {names : List (List Char)} (h : ∀ name ∈ names, IsName name) :
    IsResolved (⟨true, 0, names⟩ : Lexical).toPath := ⟨_, ⟨h, fun _ => rfl⟩, rfl, rfl⟩

/-- The root and the names behind it are the components. -/
theorem components_rooted {names : List (List Char)} (h : ∀ name ∈ names, IsName name) :
    components (⟨true, 0, names⟩ : Lexical).toPath = .root :: names.map .name :=
  components_toPath ⟨h, fun _ => rfl⟩

/-- A name is not empty and has no slash, so nothing that ends with one ends with a slash. -/
theorem IsName.getLast?_ne_slash {name : List Char} (h : IsName name) {p : Path}
    (hend : name <:+ p) : p.getLast? ≠ some '/' := by
  obtain ⟨front, rfl⟩ := hend
  rw [List.getLast?_append]
  cases hlast : name.getLast? with
  | none =>
    have hidle := h.notIdle
    rw [List.getLast?_eq_none_iff.1 hlast] at hidle
    cases hidle
  | some c =>
    rintro hc
    cases hc
    exact h.noSlash (List.mem_of_getLast? hlast)

/-- What is joined goes behind the names that are there. -/
theorem join_toPath {names : List (List Char)} (h : ∀ name ∈ names, IsName name)
    {route : List (List Char)} (hroute : ∀ name ∈ route, IsName name) (hne : route ≠ []) :
    join (⟨true, 0, names⟩ : Lexical).toPath (joined route) =
      (⟨true, 0, names ++ route⟩ : Lexical).toPath := by
  show join ('/' :: joined names) (joined route) = '/' :: joined (names ++ route)
  unfold join
  rw [if_neg (by simp [isAbsolute_joined hroute])]
  -- the root ends with a slash and needs no other one
  rcases List.eq_nil_or_concat names with rfl | ⟨before, last, rfl⟩
  · rfl
  · rw [List.concat_eq_append] at h ⊢
    have hend := (suffix_joined before last).trans (List.suffix_cons '/' _)
    have hlast : IsName last := h last (by simp)
    rw [if_neg (hlast.getLast?_ne_slash hend), joined_append (by simp) hne]
    rfl

/-- Going along a route adds its names, one after the other. -/
theorem along_toPath {names : List (List Char)} (h : ∀ name ∈ names, IsName name)
    {route : List (List Char)} (hroute : ∀ name ∈ route, IsName name) :
    along (⟨true, 0, names⟩ : Lexical).toPath route =
      (⟨true, 0, names ++ route⟩ : Lexical).toPath := by
  induction route generalizing names with
  | nil => rw [List.append_nil]; rfl
  | cons name rest ih =>
    have hname : IsName name := hroute name List.mem_cons_self
    have hlonger : ∀ other ∈ names ++ [name], IsName other :=
      List.forall_mem_append.2 ⟨h, by simpa using hname⟩
    have hjoin : join (⟨true, 0, names⟩ : Lexical).toPath (joined [name]) =
        (⟨true, 0, names ++ [name]⟩ : Lexical).toPath :=
      join_toPath h (by simpa using hname) (by simp)
    -- the first name is joined, and the rest of the route goes on from there
    show along (join _ (joined [name])) rest = _
    rw [hjoin, ih hlonger fun other hother => hroute other (List.mem_cons_of_mem name hother)]
    simp

section Along

variable {base : Path} (hbase : IsResolved base) {route : List (List Char)}
  (hroute : ∀ name ∈ route, IsName name)

include hbase hroute

/-- A route of names leads from a resolved path to a resolved path. -/
theorem isResolved_along : IsResolved (along base route) := by
  obtain ⟨names, hnames, rfl⟩ := hbase.exists_names
  rw [along_toPath hnames hroute]
  exact isResolved_toPath (List.forall_mem_append.2 ⟨hnames, hroute⟩)

theorem components_along :
    components (along base route) = components base ++ route.map .name := by
  obtain ⟨names, hnames, rfl⟩ := hbase.exists_names
  have hall : ∀ name ∈ names ++ route, IsName name := List.forall_mem_append.2 ⟨hnames, hroute⟩
  rw [along_toPath hnames hroute, components_rooted hall, components_rooted hnames]
  simp

/-- Joining the whole route at once gives the same path. -/
theorem join_joined (hne : route ≠ []) : join base (joined route) = along base route := by
  obtain ⟨names, hnames, rfl⟩ := hbase.exists_names
  rw [along_toPath hnames hroute, join_toPath hnames hroute hne]

omit hroute in
/-- In front of the names there is always the same. -/
theorem exists_front : ∃ front : Path, ∀ route : List (List Char), (∀ name ∈ route, IsName name) →
    route ≠ [] → along base route = front ++ joined route := by
  obtain ⟨names, hnames, rfl⟩ := hbase.exists_names
  cases names with
  | nil => exact ⟨['/'], fun route hroute _ => by rw [along_toPath hnames hroute]; rfl⟩
  | cons first rest =>
    refine ⟨'/' :: joined (first :: rest) ++ ['/'], fun route hroute hne => ?_⟩
    rw [along_toPath hnames hroute]
    show '/' :: joined ((first :: rest) ++ route) = _
    rw [joined_append (by simp) hne]
    simp

theorem atOrBelow_along : AtOrBelow base (along base route) := by
  unfold AtOrBelow
  rw [components_along hbase hroute]
  exact List.prefix_append (components base) _

/-- The names are read off the path. -/
theorem along_injective {other : List (List Char)} (hother : ∀ name ∈ other, IsName name)
    (h : along base route = along base other) : route = other := by
  have hcomponents := congrArg components h
  rw [components_along hbase hroute, components_along hbase hother] at hcomponents
  have hnames := List.append_cancel_left hcomponents
  exact List.map_injective_iff.2 (fun a b hab => Component.name.inj hab) hnames

omit hbase in
/-- Names have nothing idle in front or at the end. -/
theorem remainder_names : remainder route = joined route := by
  have hkept {names : List (List Char)} (h : ∀ name ∈ names, IsName name) :
      names.dropWhile isIdle = names := by
    cases names with
    | nil => rfl
    | cons name rest =>
      exact List.dropWhile_cons_of_neg (by simp [(h name List.mem_cons_self).notIdle])
  unfold remainder dropIdleEnd
  rw [hkept hroute, hkept fun name hname => hroute name (List.mem_reverse.1 hname),
    List.reverse_reverse]

/-- Below the directory are the names. -/
theorem below?_along (hne : route ≠ []) : below? base (along base route) = some (joined route) := by
  have hsegments : segments (joined route) = route :=
    segments_joined hne fun name hname => (hroute name hname).noSlash
  rw [← join_joined hbase hroute hne, below?_join hbase.isAbsolute (isAbsolute_joined hroute),
    hsegments, remainder_names hroute]

end Along

end Stencil.Path
