import Stencil.Path.Lexical

/-!
# The normal form of paths

What `Path.collapse` and `Path.resolve` give, read again as a path. The pieces of a text are cut at
every separator (`segments_append_slash`), so the text of a collapsed path has exactly the
components that it was made from (`components_toPath`) and collapses to itself (`lexical_toPath`). A
resolved path is therefore resolved to itself, wherever the current directory is
(`IsResolved.resolve_eq`).
-/

namespace Stencil.Path

/-! ## Pieces -/

@[simp] theorem segments_slash_cons (rest : List Char) :
    segments ('/' :: rest) = [] :: segments rest := rfl

theorem segments_cons_of_ne {c : Char} {rest piece : List Char} {pieces : List (List Char)}
    (hc : c ≠ '/') (h : segments rest = piece :: pieces) :
    segments (c :: rest) = (c :: piece) :: pieces := by
  rw [segments, if_neg hc, h]

/-- A text without slashes is one piece. -/
theorem segments_of_slash_not_mem {piece : List Char} (h : '/' ∉ piece) :
    segments piece = [piece] := by
  induction piece with
  | nil => rfl
  | cons c rest ih =>
    have hc : c ≠ '/' := fun hc => h (hc ▸ List.mem_cons_self)
    have hrest := ih fun hmem => h (List.mem_cons_of_mem c hmem)
    exact segments_cons_of_ne hc hrest

/-- A separator ends one list of pieces and begins another. -/
theorem segments_append_slash (a b : List Char) :
    segments (a ++ '/' :: b) = segments a ++ segments b := by
  induction a with
  | nil => rfl
  | cons c rest ih =>
    by_cases hc : c = '/'
    · subst hc
      rw [List.cons_append, segments_slash_cons, segments_slash_cons, ih, List.cons_append]
    · -- on both sides `c` goes to the first piece of what follows
      cases hrest : segments rest with
      | nil => exact absurd hrest (segments_ne_nil rest)
      | cons piece pieces =>
        rw [hrest] at ih
        rw [List.cons_append, segments_cons_of_ne hc ih, segments_cons_of_ne hc hrest]
        rfl

/-- Pieces of a text hold no slash. -/
theorem slash_not_mem_of_mem_segments {cs piece : List Char} (h : piece ∈ segments cs) :
    '/' ∉ piece := by
  induction cs generalizing piece with
  | nil =>
    rw [segments, List.mem_singleton] at h
    rw [h]
    exact List.not_mem_nil
  | cons c rest ih =>
    by_cases hc : c = '/'
    · subst hc
      rcases List.mem_cons.1 h with rfl | h
      · exact List.not_mem_nil
      · exact ih h
    · -- the character joins the first piece; the others are those of the rest
      cases hrest : segments rest with
      | nil => exact absurd hrest (segments_ne_nil rest)
      | cons first more =>
        rw [segments_cons_of_ne hc hrest] at h
        rw [hrest] at ih
        rcases List.mem_cons.1 h with rfl | h
        · intro hmem
          rcases List.mem_cons.1 hmem with heq | hmem
          · exact hc heq.symm
          · exact ih List.mem_cons_self hmem
        · exact ih (List.mem_cons_of_mem first h)

/-- Pieces without separators are found again in their text. -/
theorem segments_joined {pieces : List (List Char)} (hne : pieces ≠ [])
    (h : ∀ piece ∈ pieces, '/' ∉ piece) : segments (joined pieces) = pieces := by
  induction pieces with
  | nil => exact absurd rfl hne
  | cons piece rest ih =>
    have hpiece := segments_of_slash_not_mem (h piece List.mem_cons_self)
    cases rest with
    | nil => exact hpiece
    | cons next more =>
      have hrest := ih (by simp) fun p hp => h p (List.mem_cons_of_mem piece hp)
      show segments (piece ++ '/' :: joined (next :: more)) = _
      rw [segments_append_slash, hpiece, hrest]
      rfl

/-- Two joined parts have a slash between them. -/
theorem joined_append {a b : List (List Char)} (ha : a ≠ []) (hb : b ≠ []) :
    joined (a ++ b) = joined a ++ '/' :: joined b := by
  induction a with
  | nil => exact absurd rfl ha
  | cons piece rest ih =>
    cases rest with
    | nil =>
      cases b with
      | nil => exact absurd rfl hb
      | cons first more => rfl
    | cons next more =>
      show piece ++ '/' :: joined ((next :: more) ++ b) = _
      rw [ih (by simp)]
      show _ = (piece ++ '/' :: joined (next :: more)) ++ '/' :: joined b
      simp

/-- Pieces end with the last one. -/
theorem suffix_joined (before : List (List Char)) (last : List Char) :
    last <:+ joined (before ++ [last]) := by
  cases before with
  | nil => exact List.suffix_refl last
  | cons piece rest =>
    rw [joined_append (by simp) (by simp)]
    exact (List.suffix_cons '/' last).trans (List.suffix_append (joined (piece :: rest)) _)

/-! ## Names -/

/-- A piece that is a name: it says something, is not `..`, and holds no separator. -/
structure IsName (piece : List Char) : Prop where
  notIdle : isIdle piece = false
  notUp : piece ≠ ['.', '.']
  noSlash : '/' ∉ piece

/-- The pieces that say names and `..` are the components that they say. -/
theorem componentsOf_pieces (ups : Nat) {names : List (List Char)}
    (h : ∀ name ∈ names, IsName name) :
    componentsOf (List.replicate ups ['.', '.'] ++ names) =
      List.replicate ups .up ++ names.map .name := by
  unfold componentsOf
  rw [List.filter_append, List.map_append]
  -- nothing is filtered out: `..` and names are not idle
  congr 1
  · rw [List.filter_eq_self.2]
    · rw [List.map_replicate]
      rfl
    · intro piece hpiece
      rw [List.eq_of_mem_replicate hpiece]
      rfl
  · rw [List.filter_eq_self.2]
    · refine List.map_congr_left fun name hname => ?_
      unfold Component.ofPiece
      rw [if_neg (h name hname).notUp]
    · intro name hname
      rw [(h name hname).notIdle]
      rfl

/-- Each piece is a component or none, by itself. -/
theorem componentsOf_append (a b : List (List Char)) :
    componentsOf (a ++ b) = componentsOf a ++ componentsOf b := by
  unfold componentsOf
  rw [List.filter_append, List.map_append]

theorem componentsOf_cons_of_isIdle {piece : List Char} (h : isIdle piece = true)
    (rest : List (List Char)) : componentsOf (piece :: rest) = componentsOf rest := by
  unfold componentsOf
  rw [List.filter_cons_of_neg (by simp [h])]

theorem componentsOf_cons_of_not_isIdle {piece : List Char} (h : isIdle piece = false)
    (rest : List (List Char)) :
    componentsOf (piece :: rest) = Component.ofPiece piece :: componentsOf rest := by
  unfold componentsOf
  rw [List.filter_cons_of_pos (by simp [h]), List.map_cons]

/-- Every component of pieces without separators is `..` or a name. -/
theorem mem_componentsOf {pieces : List (List Char)} (h : ∀ piece ∈ pieces, '/' ∉ piece)
    {c : Component} (hc : c ∈ componentsOf pieces) :
    c = .up ∨ ∃ name, c = .name name ∧ IsName name := by
  unfold componentsOf at hc
  obtain ⟨piece, hpiece, rfl⟩ := List.mem_map.1 hc
  obtain ⟨hmem, hidle⟩ := List.mem_filter.1 hpiece
  unfold Component.ofPiece
  split
  · exact Or.inl rfl
  · rename_i hup
    exact Or.inr ⟨piece, rfl, by simpa using hidle, hup, h piece hmem⟩

/-- A name among the components of a path is one. -/
theorem isName_of_mem_components {p : Path} {name : List Char} (h : .name name ∈ components p) :
    IsName name := by
  have hpieces : .name name ∈ componentsOf (segments p) := by
    unfold components at h
    split at h
    · simpa using h
    · split at h
      · simpa using h
      · exact h
  -- a piece becomes `..` or a name, so the name is a piece that is neither idle nor `..`
  rcases mem_componentsOf (fun _ => slash_not_mem_of_mem_segments) hpieces with
    hup | ⟨_, heq, hname⟩
  · cases hup
  · cases heq
    exact hname

/-- Pieces become `..` or names. -/
theorem cases_of_mem_componentsOf {pieces : List (List Char)} {c : Component}
    (h : c ∈ componentsOf pieces) : c = .up ∨ ∃ name, c = .name name := by
  unfold componentsOf at h
  obtain ⟨piece, -, rfl⟩ := List.mem_map.1 h
  unfold Component.ofPiece
  split
  · exact .inl rfl
  · exact .inr ⟨piece, rfl⟩

/-- The root comes from the slash at the front. -/
theorem root_not_mem_componentsOf (pieces : List (List Char)) : .root ∉ componentsOf pieces := by
  intro h
  obtain hup | ⟨name, hname⟩ := cases_of_mem_componentsOf h
  · cases hup
  · cases hname

/-- A `.` becomes a component only at the front of a path. -/
theorem here_not_mem_componentsOf (pieces : List (List Char)) : .here ∉ componentsOf pieces := by
  intro h
  obtain hup | ⟨name, hname⟩ := cases_of_mem_componentsOf h
  · cases hup
  · cases hname

/-- The piece before the first slash is empty. -/
theorem components_of_isAbsolute {p : Path} (h : isAbsolute p = true) :
    components p = .root :: componentsOf (segments p).tail := by
  cases p with
  | nil => cases h
  | cons c rest =>
    have hc : c = '/' := by simpa [isAbsolute] using h
    rw [hc]
    rfl

/-- An absolute path says the root first, a relative one may say `.` first. -/
theorem components_cases (p : Path) :
    (isAbsolute p = true ∧ components p = .root :: componentsOf (segments p).tail) ∨
    (isAbsolute p = false ∧ ∃ rest, segments p = ['.'] :: rest ∧
      components p = .here :: componentsOf rest) ∨
    (isAbsolute p = false ∧ (segments p).head? ≠ some ['.'] ∧
      components p = componentsOf (segments p)) := by
  cases habs : isAbsolute p with
  | true => exact .inl ⟨rfl, components_of_isAbsolute habs⟩
  | false =>
    right
    unfold components
    rw [habs, if_neg Bool.false_ne_true]
    -- a relative path may start with a `.`, which is kept
    by_cases hhere : (segments p).head? = some ['.']
    · left
      obtain ⟨rest, hrest⟩ := List.head?_eq_some_iff.1 hhere
      rw [if_pos hhere, hrest]
      exact ⟨rfl, rest, rfl, rfl⟩
    · rw [if_neg hhere]
      exact .inr ⟨rfl, hhere, rfl⟩

/-- The root is said first or not at all. -/
theorem root_not_mem_tail_components (p : Path) : .root ∉ (components p).tail := by
  obtain ⟨-, hp⟩ | ⟨-, rest, -, hp⟩ | ⟨-, -, hp⟩ := components_cases p
  · rw [hp]
    exact root_not_mem_componentsOf _
  · rw [hp]
    exact root_not_mem_componentsOf _
  · rw [hp]
    exact fun hmem => root_not_mem_componentsOf _ (List.mem_of_mem_tail hmem)

/-! ## Normal forms -/

namespace Lexical

/-- What every collapsed path satisfies: its names are names, and an absolute one has no `..`. -/
structure Normal (p : Lexical) : Prop where
  names : ∀ name ∈ p.names, IsName name
  rooted : p.absolute = true → p.ups = 0

/-- The components that a collapsed path stands for. -/
def parts (p : Lexical) : List Component :=
  (if p.absolute then [.root] else []) ++ (List.replicate p.ups .up ++ p.names.map .name)

/-- What `..` does: it takes a name back, is dropped at the root, or is kept. -/
theorem push_up (p : Lexical) :
    p.push .up =
      if p.names ≠ [] then { p with names := p.names.dropLast }
      else if p.absolute then p
      else { p with ups := p.ups + 1 } := rfl

/-- Pushing a component that is fit for it keeps a form normal. -/
theorem Normal.push {p : Lexical} (h : p.Normal) {c : Component}
    (hc : ∀ name, c = .name name → IsName name) : (p.push c).Normal := by
  cases c with
  | root => exact ⟨by simp [Lexical.push], fun _ => rfl⟩
  | here => exact h
  | up =>
    -- a name less, nothing at the root, or one more `..` in a relative path
    rw [push_up]
    split
    · exact ⟨fun name hname => h.names name (List.dropLast_subset p.names hname), h.rooted⟩
    · split
      · exact h
      · rename_i habs
        exact ⟨h.names, fun ht => absurd ht habs⟩
  | name text =>
    refine ⟨fun name hname => ?_, h.rooted⟩
    rcases List.mem_append.1 hname with hname | hname
    · exact h.names name hname
    · rw [List.mem_singleton.1 hname]
      exact hc text rfl

theorem Normal.foldl_push {p : Lexical} (h : p.Normal) {cs : List Component}
    (hcs : ∀ name, .name name ∈ cs → IsName name) : (cs.foldl Lexical.push p).Normal := by
  induction cs generalizing p with
  | nil => exact h
  | cons c rest ih =>
    refine ih (h.push fun name hname => hcs name ?_) fun name hname =>
      hcs name (List.mem_cons_of_mem c hname)
    rw [hname]
    exact List.mem_cons_self

/-- Behind the root only another root would change whether a path is absolute. -/
theorem absolute_foldl_push (p : Lexical) {cs : List Component} (h : .root ∉ cs) :
    (cs.foldl push p).absolute = p.absolute := by
  induction cs generalizing p with
  | nil => rfl
  | cons c rest ih =>
    rw [List.foldl_cons, ih _ fun hmem => h (List.mem_cons_of_mem c hmem)]
    cases c with
    | root => exact absurd List.mem_cons_self h
    | here => rfl
    | name text => rfl
    | up =>
      -- none of the three effects of `..` touches it
      rw [push_up]
      split
      · rfl
      · split <;> rfl

/-- Names pile up at the end. -/
theorem foldl_push_names (p : Lexical) (names : List (List Char)) :
    (names.map Component.name).foldl push p = { p with names := p.names ++ names } := by
  induction names generalizing p with
  | nil => simp
  | cons name rest ih =>
    rw [List.map_cons, List.foldl_cons, ih, push_name]
    simp

/-- With no name before them, `..` pile up at the front. -/
theorem foldl_push_ups (n ups : Nat) :
    (List.replicate n Component.up).foldl push ⟨false, ups, []⟩ = ⟨false, ups + n, []⟩ := by
  induction n generalizing ups with
  | zero => rfl
  | succ n ih =>
    rw [List.replicate_succ, List.foldl_cons]
    show (List.replicate n Component.up).foldl push ⟨false, ups + 1, []⟩ = _
    rw [ih, show ups + 1 + n = ups + (n + 1) from by omega]

/-- The components of a normal form collapse to it. -/
theorem ofComponents_parts {p : Lexical} (h : p.Normal) : ofComponents p.parts = p := by
  obtain ⟨absolute, ups, names⟩ := p
  unfold ofComponents parts
  cases absolute with
  | true =>
    have hups : ups = 0 := h.rooted rfl
    subst hups
    exact foldl_push_names ⟨true, 0, []⟩ names
  | false =>
    show (List.replicate ups Component.up ++ names.map Component.name).foldl push ⟨false, 0, []⟩ = _
    rw [List.foldl_append, foldl_push_ups, foldl_push_names, Nat.zero_add, List.nil_append]

end Lexical

/-- Every path has a normal lexical form. -/
theorem normal_lexical (p : Path) : (lexical p).Normal := by
  refine Lexical.Normal.foldl_push ⟨?_, fun _ => rfl⟩ fun name => isName_of_mem_components
  intro name hname
  cases hname

theorem absolute_lexical (p : Path) : (lexical p).absolute = isAbsolute p := by
  unfold lexical Lexical.ofComponents components
  split
  · rename_i habs
    rw [List.foldl_cons, Lexical.absolute_foldl_push _ (root_not_mem_componentsOf _), habs]
    rfl
  · rename_i habs
    rw [Bool.not_eq_true] at habs
    split
    · rw [List.foldl_cons, Lexical.absolute_foldl_push _ (root_not_mem_componentsOf _), habs]
      rfl
    · rw [Lexical.absolute_foldl_push _ (root_not_mem_componentsOf _), habs]
      rfl

/-! ## Reading a normal form -/

/-- The text of pieces says what the pieces say. -/
theorem componentsOf_segments_joined {pieces : List (List Char)}
    (h : ∀ piece ∈ pieces, '/' ∉ piece) :
    componentsOf (segments (joined pieces)) = componentsOf pieces := by
  cases pieces with
  | nil => rfl
  | cons piece rest => rw [segments_joined (by simp) h]

/-- The text of pieces is relative, and does not begin with a `.` piece, if its first piece is `..`
or a name. -/
theorem components_joined {pieces : List (List Char)} (hslash : ∀ piece ∈ pieces, '/' ∉ piece)
    (hidle : ∀ piece ∈ pieces.head?, isIdle piece = false) :
    components (joined pieces) = componentsOf pieces := by
  rw [← componentsOf_segments_joined hslash]
  cases pieces with
  | nil => rfl
  | cons piece rest =>
    have hpiece := hidle piece rfl
    have hsegments := segments_joined (List.cons_ne_nil piece rest) hslash
    -- the first character is one of the first piece, so it is no separator
    have hrel : isAbsolute (joined (piece :: rest)) = false := by
      cases piece with
      | nil => cases hpiece
      | cons c cs =>
        have hc : c ≠ '/' := fun hc => hslash _ List.mem_cons_self (hc ▸ List.mem_cons_self)
        have hhead : (joined ((c :: cs) :: rest)).head? = some c := by
          cases rest <;> rfl
        unfold isAbsolute
        rw [hhead]
        simpa using hc
    unfold components
    rw [hrel, if_neg Bool.false_ne_true, if_neg]
    -- and the first piece is not `.`, which would be idle
    rw [hsegments, List.head?_cons, Option.some.injEq]
    rintro rfl
    cases hpiece

/-- A normal form is written out as pieces without slashes, so cutting gives them back. -/
theorem slash_not_mem_piece {ups : Nat} {names : List (List Char)} (h : ∀ name ∈ names, IsName name)
    {piece : List Char} (hpiece : piece ∈ List.replicate ups ['.', '.'] ++ names) :
    '/' ∉ piece := by
  rcases List.mem_append.1 hpiece with hpiece | hpiece
  · rw [List.eq_of_mem_replicate hpiece]
    decide
  · exact (h piece hpiece).noSlash

/-- None of the pieces that a normal form is written with is idle. -/
theorem isIdle_piece {ups : Nat} {names : List (List Char)} (h : ∀ name ∈ names, IsName name)
    {piece : List Char} (hpiece : piece ∈ List.replicate ups ['.', '.'] ++ names) :
    isIdle piece = false := by
  rcases List.mem_append.1 hpiece with hpiece | hpiece
  · rw [List.eq_of_mem_replicate hpiece]
    decide
  · exact (h piece hpiece).notIdle

/-- The text of a normal form has the components that it stands for. -/
theorem components_toPath {p : Lexical} (h : p.Normal) : components p.toPath = p.parts := by
  have hslash : ∀ piece ∈ List.replicate p.ups ['.', '.'] ++ p.names, '/' ∉ piece :=
    fun piece => slash_not_mem_piece h.names
  unfold Lexical.toPath Lexical.parts
  cases habs : p.absolute with
  | false =>
    show components (joined (List.replicate p.ups ['.', '.'] ++ p.names)) = _
    rw [components_joined hslash fun piece hpiece => isIdle_piece h.names (List.mem_of_head? hpiece),
      componentsOf_pieces p.ups h.names]
    rfl
  | true =>
    -- the empty piece in front of the separator is idle
    show Component.root :: componentsOf
      (segments (joined (List.replicate p.ups ['.', '.'] ++ p.names))) = _
    rw [componentsOf_segments_joined hslash, componentsOf_pieces p.ups h.names]
    rfl

/-- The text of a normal form collapses to it. -/
theorem lexical_toPath {p : Lexical} (h : p.Normal) : lexical p.toPath = p := by
  unfold lexical
  rw [components_toPath h, Lexical.ofComponents_parts h]

/-- A normal form that is written out collapses to itself. -/
theorem collapse_toPath {p : Lexical} (h : p.Normal) : collapse p.toPath = p.toPath := by
  unfold collapse
  rw [lexical_toPath h]

/-- It is written with a slash at the front when it is absolute. -/
theorem isAbsolute_toPath {p : Lexical} (h : p.Normal) : isAbsolute p.toPath = p.absolute := by
  rw [← absolute_lexical, lexical_toPath h]

/-! ## Resolved paths -/

theorem isAbsolute_join {base : Path} (h : isAbsolute base = true) (p : Path) :
    isAbsolute (join base p) = true := by
  cases base with
  | nil => cases h
  | cons c rest =>
    unfold join
    split
    · rename_i hp
      rcases hp with hp | hnil
      · exact hp
      · cases hnil
    · split <;> exact h

/-- A resolved path is the text of an absolute normal form. -/
def IsResolved (p : Path) : Prop :=
  ∃ form : Lexical, form.Normal ∧ form.absolute = true ∧ p = form.toPath

/-- A collapsed absolute path is resolved. -/
theorem isResolved_collapse {p : Path} (h : isAbsolute p = true) : IsResolved (collapse p) :=
  ⟨lexical p, normal_lexical p, (absolute_lexical p).trans h, rfl⟩

/-- A resolved path is absolute. -/
theorem IsResolved.isAbsolute {p : Path} (h : IsResolved p) : Path.isAbsolute p = true := by
  obtain ⟨form, hform, habs, rfl⟩ := h
  exact (isAbsolute_toPath hform).trans habs

/-- Resolving against an absolute directory gives a resolved path. -/
theorem isResolved_of_resolve {current : Option Path} {p resolved : Path}
    (hcurrent : ∀ dir ∈ current, isAbsolute dir = true) (h : resolve current p = .ok resolved) :
    IsResolved resolved := by
  unfold resolve at h
  split at h
  · cases h
  · split at h
    · rename_i habs
      cases h
      exact isResolved_collapse habs
    · -- a relative path is joined to the current directory, which has to be known
      cases current with
      | none => cases h
      | some dir =>
        cases h
        exact isResolved_collapse (isAbsolute_join (hcurrent dir rfl) p)

/-- An absolute path is collapsed, wherever the current directory is. -/
theorem resolve_of_isAbsolute {p : Path} (h : isAbsolute p = true) (current : Option Path) :
    resolve current p = .ok (collapse p) := by
  unfold resolve
  rw [if_neg, if_pos h]
  rintro rfl
  cases h

/-- A resolved path is resolved to itself, from everywhere. -/
theorem IsResolved.resolve_eq {p : Path} (h : IsResolved p) (current : Option Path) :
    resolve current p = .ok p := by
  rw [resolve_of_isAbsolute h.isAbsolute]
  obtain ⟨form, hform, -, rfl⟩ := h
  rw [collapse_toPath hform]

end Stencil.Path
