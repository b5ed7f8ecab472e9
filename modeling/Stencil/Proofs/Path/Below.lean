import Stencil.Proofs.Path.Containment

/-!
# The part below a directory, exactly

`below?` gives a part of a path just if the components of the directory come first
(`below?_eq_none_iff`). The part is a relative path of the components behind them
(`components_of_below?`): a remainder of pieces loses idle pieces at its ends and no component
(`exists_remainder`). What was joined to an absolute directory, however the two are spelled, is found
again below it (`below?_join`).
-/

namespace Stencil.Path

/-! ## Remainders -/

/-- Idle pieces at the end are no components. -/
theorem componentsOf_dropIdleEnd (pieces : List (List Char)) :
    componentsOf (dropIdleEnd pieces) = componentsOf pieces := by
  have hreverse (pieces : List (List Char)) :
      componentsOf pieces.reverse = (componentsOf pieces).reverse := by
    unfold componentsOf
    rw [List.filter_reverse, List.map_reverse]
  unfold dropIdleEnd
  rw [hreverse, componentsOf_dropWhile_isIdle, hreverse, List.reverse_reverse]

/-- A remainder is made of the pieces between the idle ones at the two ends. -/
theorem exists_remainder (pieces : List (List Char)) :
    ∃ kept, remainder pieces = joined kept ∧ kept ⊆ pieces ∧
      componentsOf kept = componentsOf pieces ∧
      (∀ piece ∈ kept.head?, isIdle piece = false) ∧
      ∀ piece ∈ kept.getLast?, isIdle piece = false := by
  have hfront := List.dropWhile_suffix isIdle (l := pieces)
  have hend : dropIdleEnd (pieces.dropWhile isIdle) <+: pieces.dropWhile isIdle := by
    have hsuffix := List.dropWhile_suffix isIdle (l := (pieces.dropWhile isIdle).reverse)
    unfold dropIdleEnd
    rwa [← List.reverse_suffix, List.reverse_reverse]
  -- what is kept is a part of the pieces from which idle ones were dropped at both ends
  refine ⟨dropIdleEnd (pieces.dropWhile isIdle), rfl,
    fun piece hpiece => hfront.subset (hend.subset hpiece), ?_, fun piece hpiece => ?_,
    fun piece hpiece => ?_⟩
  · rw [componentsOf_dropIdleEnd, componentsOf_dropWhile_isIdle]
  · -- the first of the kept pieces is the first that is not idle
    obtain ⟨more, hmore⟩ := hend
    have hnot := List.head?_dropWhile_not isIdle pieces
    rw [← hmore, List.head?_append, Option.mem_def.1 hpiece] at hnot
    exact hnot
  · have hlast : ((pieces.dropWhile isIdle).reverse.dropWhile isIdle).head? = some piece := by
      rw [← List.getLast?_reverse]
      exact hpiece
    have hnot := List.head?_dropWhile_not isIdle (pieces.dropWhile isIdle).reverse
    rw [hlast] at hnot
    exact hnot

/-- A character of joined pieces is a separator or stands in a piece. -/
theorem mem_joined {c : Char} {pieces : List (List Char)} (h : c ∈ joined pieces) :
    c = '/' ∨ ∃ piece ∈ pieces, c ∈ piece := by
  induction pieces with
  | nil => cases h
  | cons piece rest ih =>
    cases rest with
    | nil => exact .inr ⟨piece, List.mem_cons_self, h⟩
    -- only between two pieces is there a slash
    | cons next more =>
      rcases List.mem_append.1 h with h | h
      · exact .inr ⟨piece, List.mem_cons_self, h⟩
      · rcases List.mem_cons.1 h with h | h
        · exact .inl h
        · obtain h | ⟨other, hother, h⟩ := ih h
          · exact .inl h
          · exact .inr ⟨other, List.mem_cons_of_mem piece hother, h⟩

/-- A character other than a slash has to come from a piece. -/
theorem not_mem_remainder {c : Char} (hc : c ≠ '/') {pieces : List (List Char)}
    (h : ∀ piece ∈ pieces, c ∉ piece) : c ∉ remainder pieces := by
  obtain ⟨kept, hkept, hsubset, -⟩ := exists_remainder pieces
  rw [hkept]
  intro hmem
  obtain hslash | ⟨piece, hpiece, hmem⟩ := mem_joined hmem
  · exact hc hslash
  · exact h piece (hsubset hpiece) hmem

section Remainder

variable {pieces : List (List Char)} (hslash : ∀ piece ∈ pieces, '/' ∉ piece)

include hslash

/-- A remainder is a relative path and says what its pieces say. -/
theorem components_remainder : components (remainder pieces) = componentsOf pieces := by
  obtain ⟨kept, hkept, hsubset, hcomponents, hhead, -⟩ := exists_remainder pieces
  rw [hkept, components_joined (fun piece hpiece => hslash piece (hsubset hpiece)) hhead,
    hcomponents]

omit hslash in
/-- It ends as its last name does. -/
theorem suffix_remainder {before : List Component} {name : List Char}
    (h : componentsOf pieces = before ++ [.name name]) : name <:+ remainder pieces := by
  obtain ⟨kept, hkept, -, hcomponents, -, hlast⟩ := exists_remainder pieces
  rw [hkept]
  rcases List.eq_nil_or_concat kept with rfl | ⟨front, piece, rfl⟩
  · rw [h] at hcomponents
    simp [componentsOf] at hcomponents
  · have hidle : isIdle piece = false := hlast piece (by simp)
    rw [List.concat_eq_append] at hcomponents ⊢
    rw [componentsOf_append, componentsOf_cons_of_not_isIdle hidle, h] at hcomponents
    -- the last piece is the one that says the last name
    have hpiece : Component.ofPiece piece = .name name := by
      have hsame := congrArg List.getLast? hcomponents
      simpa [componentsOf] using hsame
    unfold Component.ofPiece at hpiece
    split at hpiece
    · cases hpiece
    · cases hpiece
      exact suffix_joined front _

end Remainder

/-! ## Finding the part -/

/-- What is left after some components is an end of the list of pieces. -/
theorem suffix_of_afterComponents {cs : List Component} {pieces rest : List (List Char)}
    (h : afterComponents cs pieces = some rest) : rest <:+ pieces := by
  induction cs generalizing pieces with
  | nil =>
    cases h
    exact List.suffix_refl rest
  | cons c cs ih =>
    have hsuffix := List.dropWhile_suffix isIdle (l := pieces)
    unfold afterComponents at h
    cases hpieces : pieces.dropWhile isIdle with
    | nil =>
      rw [hpieces] at h
      cases h
    | cons piece more =>
      rw [hpieces] at h hsuffix
      simp only at h
      split at h
      · exact ((ih h).trans (List.suffix_cons piece more)).trans hsuffix
      · cases h

/-- The pieces that say some components are found where these come first. -/
theorem exists_afterComponents {cs more : List Component} {pieces : List (List Char)}
    (h : componentsOf pieces = cs ++ more) : ∃ rest, afterComponents cs pieces = some rest := by
  induction cs generalizing pieces with
  | nil => exact ⟨pieces, rfl⟩
  | cons c cs ih =>
    -- idle pieces are passed over; the first other one is the first component
    have hdrop := componentsOf_dropWhile_isIdle pieces
    have hnot := List.head?_dropWhile_not isIdle pieces
    unfold afterComponents
    cases hpieces : pieces.dropWhile isIdle with
    | nil =>
      rw [hpieces, h] at hdrop
      cases hdrop
    | cons piece rest =>
      rw [hpieces] at hdrop hnot
      rw [componentsOf_cons_of_not_isIdle hnot, h] at hdrop
      obtain ⟨hpiece, hrest⟩ := List.cons.inj hdrop
      simp only [hpiece, if_true]
      exact ih hrest

/-- A path that says names alone is relative and has a piece for each name. -/
theorem relative_of_components_eq {p : Path} {names : List (List Char)}
    (h : components p = names.map .name) :
    isAbsolute p = false ∧ componentsOf (segments p) = names.map .name := by
  have hname {c : Component} (hc : c ∈ components p) : ∃ name, c = .name name := by
    rw [h] at hc
    obtain ⟨name, -, rfl⟩ := List.mem_map.1 hc
    exact ⟨name, rfl⟩
  obtain ⟨-, hp⟩ | ⟨-, rest, -, hp⟩ | ⟨hrel, -, hp⟩ := components_cases p
  · obtain ⟨name, hroot⟩ := hname (hp ▸ List.mem_cons_self)
    cases hroot
  · obtain ⟨name, hhere⟩ := hname (hp ▸ List.mem_cons_self)
    cases hhere
  · exact ⟨hrel, by rw [← hp, h]⟩

theorem exists_below? {base p : Path} (h : AtOrBelow base p) : ∃ rest, below? base p = some rest := by
  -- the same search for components, wherever it starts in the path
  have ofPieces {cs : List Component} {pieces : List (List Char)} (h : cs <+: componentsOf pieces) :
      ∃ rest, (afterComponents cs pieces).map remainder = some rest := by
    obtain ⟨more, hmore⟩ := h
    obtain ⟨rest, hrest⟩ := exists_afterComponents hmore.symm
    exact ⟨remainder rest, by rw [hrest, Option.map_some]⟩
  unfold AtOrBelow at h
  unfold below?
  split
  · exact ⟨_, rfl⟩
  · rename_i cs hbase
    rw [hbase] at h
    obtain ⟨habs, hp⟩ | ⟨-, rest, -, hp⟩ | ⟨-, -, hp⟩ := components_cases p
    · rw [hp] at h
      rw [if_pos habs]
      exact ofPieces (List.cons_prefix_cons.1 h).2
    · rw [hp] at h
      cases (List.cons_prefix_cons.1 h).1
    · rw [hp] at h
      exact absurd (h.subset List.mem_cons_self) (root_not_mem_componentsOf _)
  · rename_i cs hbase
    rw [hbase] at h
    obtain ⟨-, hp⟩ | ⟨hrel, rest, hsegments, hp⟩ | ⟨-, -, hp⟩ := components_cases p
    · rw [hp] at h
      cases (List.cons_prefix_cons.1 h).1
    · rw [hp] at h
      rw [hrel, hsegments]
      exact ofPieces (List.cons_prefix_cons.1 h).2
    · rw [hp] at h
      exact absurd (h.subset List.mem_cons_self) (here_not_mem_componentsOf _)
  · -- the directory starts with `..` or a name
    rename_i hempty hroot hhere
    have hfirst {c : Component} {more : List Component} (h : components base <+: c :: more) :
        ∃ cs, components base = c :: cs := by
      cases hbase : components base with
      | nil => exact absurd hbase hempty
      | cons first cs =>
        rw [hbase] at h
        rw [(List.cons_prefix_cons.1 h).1]
        exact ⟨cs, rfl⟩
    obtain ⟨-, hp⟩ | ⟨-, rest, -, hp⟩ | ⟨hrel, hhead, hp⟩ := components_cases p
    · rw [hp] at h
      obtain ⟨cs, hbase⟩ := hfirst h
      exact absurd hbase (hroot cs)
    · rw [hp] at h
      obtain ⟨cs, hbase⟩ := hfirst h
      exact absurd hbase (hhere cs)
    · rw [if_neg (by simp [hrel, hhead])]
      rw [hp] at h
      exact ofPieces h

/-- There is no part below a directory just if the path is not below it. -/
theorem below?_eq_none_iff {base p : Path} : below? base p = none ↔ ¬ AtOrBelow base p := by
  constructor
  · intro h hbelow
    obtain ⟨rest, hrest⟩ := exists_below? hbelow
    rw [h] at hrest
    cases hrest
  · intro h
    cases hrest : below? base p with
    | none => rfl
    | some rest => exact absurd (components_prefix_of_below? hrest) h

/-- The part below an absolute directory says what comes behind the directory. -/
theorem components_of_below? {base p rest : Path} (hbase : isAbsolute base = true)
    (h : below? base p = some rest) : components p = components base ++ components rest := by
  have hroot : components base = .root :: componentsOf (segments base) := if_pos hbase
  have hslash : ∀ piece ∈ (segments p).tail, '/' ∉ piece := fun piece hpiece =>
    slash_not_mem_of_mem_segments (List.mem_of_mem_tail hpiece)
  unfold below? at h
  rw [hroot] at h
  simp only at h
  -- an absolute directory has only absolute paths below it
  split at h
  · rename_i habs
    obtain ⟨more, hmore, rfl⟩ := Option.map_eq_some_iff.1 h
    have hsubset := (suffix_of_afterComponents hmore).subset
    rw [components_of_isAbsolute habs, hroot, componentsOf_of_afterComponents hmore,
      components_remainder fun piece hpiece => hslash piece (hsubset hpiece), List.cons_append]
  · cases h

/-- What is left of a path below an absolute directory is relative. -/
theorem isAbsolute_of_below? {base p rest : Path} (hbase : isAbsolute base = true)
    (h : below? base p = some rest) : isAbsolute rest = false := by
  have hroot : components base = .root :: componentsOf (segments base) := if_pos hbase
  have htail : (components p).tail = componentsOf (segments base) ++ components rest := by
    rw [components_of_below? hbase h, hroot, List.cons_append, List.tail_cons]
  cases hrest : isAbsolute rest with
  | false => rfl
  | true =>
    -- the directory says the root, and nothing says it again
    have hagain : components rest = .root :: componentsOf (segments rest) := if_pos hrest
    refine absurd ?_ (root_not_mem_tail_components p)
    rw [htail, hagain]
    simp

/-! ## Joining and finding again -/

theorem ne_nil_of_isAbsolute {p : Path} (h : isAbsolute p = true) : p ≠ [] := by
  rintro rfl
  cases h

/-- There is always a first piece, so appending more does not change it. -/
theorem head?_segments_append (cs : List Char) (more : List (List Char)) :
    (segments cs ++ more).head? = (segments cs).head? := by
  cases h : segments cs with
  | nil => exact absurd h (segments_ne_nil cs)
  | cons piece pieces => rfl

section Join

variable {base : Path} (hbase : base ≠ []) {rel : Path} (hrel : isAbsolute rel = false)

include hbase hrel

/-- A relative path goes behind a slash; the directory may end with that slash already. -/
theorem exists_front_of_join : ∃ front, join base rel = front ++ '/' :: rel ∧
    (segments front).head? = (segments base).head? ∧
    componentsOf (segments front) = componentsOf (segments base) := by
  unfold join
  rw [if_neg (by simp [hrel, hbase])]
  -- a base that ends in a slash is joined without another one
  split
  · rename_i hlast
    obtain ⟨front, rfl⟩ := List.getLast?_eq_some_iff.1 hlast
    have hsegments : segments (front ++ ['/']) = segments front ++ [[]] :=
      segments_append_slash front []
    refine ⟨front, List.append_cons front '/' rel ▸ rfl, ?_, ?_⟩
    · rw [hsegments, head?_segments_append]
    · rw [hsegments, componentsOf_append]
      exact (List.append_nil _).symm
  · exact ⟨base, rfl, rfl, rfl⟩

/-- Joining a relative path keeps the front of the base. -/
theorem isAbsolute_join_of_relative : isAbsolute (join base rel) = isAbsolute base := by
  cases base with
  | nil => exact absurd rfl hbase
  | cons c rest =>
    unfold join
    rw [if_neg (by simp [hrel])]
    split <;> rfl

/-- The components of a relative path follow those of the base. -/
theorem components_join :
    components (join base rel) = components base ++ componentsOf (segments rel) := by
  obtain ⟨front, hfront, hfirst, hcomponents⟩ := exists_front_of_join hbase hrel
  have habs := isAbsolute_join_of_relative hbase hrel
  have hhead : (segments (join base rel)).head? = (segments base).head? := by
    rw [hfront, segments_append_slash, head?_segments_append, hfirst]
  have hpieces : componentsOf (segments (join base rel)) =
      componentsOf (segments base) ++ componentsOf (segments rel) := by
    rw [hfront, segments_append_slash, componentsOf_append, hcomponents]
  -- the root and a leading `.` stay in front
  unfold components
  rw [habs, hhead, hpieces]
  split
  · rfl
  · split <;> rfl

end Join

/-- An idle piece does not change what is found. -/
theorem map_remainder_afterComponents_cons {piece : List Char} (h : isIdle piece = true)
    (cs : List Component) (pieces : List (List Char)) :
    (afterComponents cs (piece :: pieces)).map remainder =
      (afterComponents cs pieces).map remainder := by
  cases cs with
  | nil =>
    simp only [afterComponents, Option.map_some, remainder, List.dropWhile_cons_of_pos h]
  | cons c cs =>
    simp only [afterComponents, List.dropWhile_cons_of_pos h]

/-- Behind the pieces that say the components comes the rest, but for idle pieces. -/
theorem map_remainder_afterComponents (pieces more : List (List Char)) :
    (afterComponents (componentsOf pieces) (pieces ++ more)).map remainder =
      some (remainder more) := by
  induction pieces with
  | nil => rfl
  | cons piece rest ih =>
    cases hidle : isIdle piece with
    | true =>
      -- an idle piece is no component, and the search passes over it as well
      rw [componentsOf_cons_of_isIdle hidle, List.cons_append,
        map_remainder_afterComponents_cons hidle, ih]
    | false =>
      rw [componentsOf_cons_of_not_isIdle hidle, List.cons_append, afterComponents,
        List.dropWhile_cons_of_neg (by simp [hidle])]
      simp only [if_true]
      exact ih

/-- What was joined to a directory is found below it. -/
theorem below?_join {base : Path} (hbase : isAbsolute base = true) {rel : Path}
    (hrel : isAbsolute rel = false) :
    below? base (join base rel) = some (remainder (segments rel)) := by
  obtain ⟨front, hfront, hhead, hcomponents⟩ :=
    exists_front_of_join (ne_nil_of_isAbsolute hbase) hrel
  -- an absolute base starts with an empty piece, which is the root
  have hempty : (segments base).head? = some [] := by
    cases base with
    | nil => cases hbase
    | cons c rest =>
      have hc : c = '/' := by simpa [isAbsolute] using hbase
      rw [hc]
      rfl
  obtain ⟨pieces, hpieces⟩ := List.head?_eq_some_iff.1 (hhead.trans hempty)
  have hroot : components base = .root :: componentsOf pieces := by
    unfold components
    rw [if_pos hbase, ← hcomponents, hpieces]
    rfl
  have htail : (segments (join base rel)).tail = pieces ++ segments rel := by
    rw [hfront, segments_append_slash, hpieces]
    rfl
  unfold below?
  rw [hroot]
  simp only
  rw [if_pos (isAbsolute_join hbase rel), htail, map_remainder_afterComponents]

end Stencil.Path
