import Stencil.Path.Below
import Stencil.Path.Storage
import Stencil.Proofs.Path.NormalForm

/-!
# Lying at or below a directory

Two tests of containment against the component-wise order of paths. `below?` finds a part of a path
only if the components of the directory come first (`components_prefix_of_below?`). `within`
compares texts; for resolved paths it accepts everything at or below the directory
(`within_of_atOrBelow`), also where names hold backslashes, which the texts compared do not keep
apart from separators. Without backslashes it accepts nothing else (`atOrBelow_of_within`).
-/

namespace Stencil.Path

/-- `p` is `dir` or lies below it, component by component. -/
def AtOrBelow (dir p : Path) : Prop := components dir <+: components p

instance (dir p : Path) : Decidable (AtOrBelow dir p) :=
  inferInstanceAs (Decidable (components dir <+: components p))

/-! ## The part below a directory -/

/-- Idle pieces in front say nothing. -/
theorem componentsOf_dropWhile_isIdle (pieces : List (List Char)) :
    componentsOf (pieces.dropWhile isIdle) = componentsOf pieces := by
  induction pieces with
  | nil => rfl
  | cons piece rest ih =>
    cases hpiece : isIdle piece with
    | true =>
      rw [List.dropWhile_cons_of_pos hpiece, ih, componentsOf_cons_of_isIdle hpiece]
    | false => rw [List.dropWhile_cons_of_neg (by simp [hpiece])]

/-- The pieces that say the components are followed by those that remain. -/
theorem componentsOf_of_afterComponents {cs : List Component} {pieces rest : List (List Char)}
    (h : afterComponents cs pieces = some rest) :
    componentsOf pieces = cs ++ componentsOf rest := by
  induction cs generalizing pieces with
  | nil =>
    cases h
    rfl
  | cons c cs ih =>
    unfold afterComponents at h
    -- idle pieces at the front are not components, so they can be dropped first
    have hdrop := componentsOf_dropWhile_isIdle pieces
    have hhead := List.head?_dropWhile_not isIdle pieces
    cases hpieces : pieces.dropWhile isIdle with
    | nil =>
      rw [hpieces] at h
      cases h
    | cons piece more =>
      rw [hpieces] at h hdrop hhead
      simp only at h
      split at h
      · rename_i hpiece
        have hidle : isIdle piece = false := by simpa using hhead
        rw [← hdrop, ← hpiece, List.cons_append, ← ih h, componentsOf_cons_of_not_isIdle hidle]
      · cases h

/-- Only what has the components of the directory first has a part below it. -/
theorem components_prefix_of_below? {base p rest : Path} (h : below? base p = some rest) :
    AtOrBelow base p := by
  -- found among the pieces, the components are a prefix of those of the path
  have ofPieces {cs : List Component} {pieces : List (List Char)} {q : Path}
      (h : (afterComponents cs pieces).map remainder = some q) : cs <+: componentsOf pieces := by
    obtain ⟨more, hmore, -⟩ := Option.map_eq_some_iff.1 h
    exact ⟨componentsOf more, (componentsOf_of_afterComponents hmore).symm⟩
  unfold AtOrBelow
  unfold below? at h
  split at h
  · rename_i hbase
    rw [hbase]
    exact List.nil_prefix
  · rename_i cs hbase
    split at h
    · rename_i habs
      rw [hbase, components_of_isAbsolute habs]
      exact List.cons_prefix_cons.2 ⟨rfl, ofPieces h⟩
    · cases h
  · rename_i cs hbase
    split at h
    · rename_i more habs hsegments
      rw [hbase, show components p = .here :: componentsOf more from by
        unfold components
        rw [habs, hsegments]
        rfl]
      exact List.cons_prefix_cons.2 ⟨rfl, ofPieces h⟩
    · cases h
  · split at h
    · cases h
    · rename_i hp
      rw [not_or] at hp
      rw [show components p = componentsOf (segments p) from by
        unfold components
        rw [if_neg hp.1, if_neg hp.2]]
      exact ofPieces h

/-! ## Comparing texts -/

/-- Trimming takes slashes away and nothing else. -/
theorem trimSlashes_append_slashes (p : Path) : ∃ n, p = trimSlashes p ++ List.replicate n '/' := by
  refine ⟨(p.reverse.takeWhile (· == '/')).length, ?_⟩
  have hslashes : p.reverse.takeWhile (· == '/') =
      List.replicate (p.reverse.takeWhile (· == '/')).length '/' := by
    refine List.eq_replicate_of_mem fun c hc => ?_
    simpa using List.all_eq_true.1 List.all_takeWhile c hc
  have hsplit := List.takeWhile_append_dropWhile (p := (· == '/')) (l := p.reverse)
  unfold trimSlashes
  calc p = p.reverse.reverse := p.reverse_reverse.symm
    _ = (p.reverse.dropWhile (· == '/')).reverse ++ (p.reverse.takeWhile (· == '/')).reverse := by
      rw [← List.reverse_append, hsplit]
    _ = _ := by rw [hslashes, List.reverse_replicate, List.length_replicate]

/-- What stands in front of slashes at the end is trimmed too if nothing else stands behind it. -/
theorem trimSlashes_append (a b : Path) :
    trimSlashes (a ++ b) = if trimSlashes b = [] then trimSlashes a else a ++ trimSlashes b := by
  unfold trimSlashes
  rw [List.reverse_append, List.dropWhile_append]
  by_cases h : b.reverse.dropWhile (· == '/') = []
  · simp [h]
  · simp [h]

/-- Slashes alone are trimmed away. -/
theorem trimSlashes_replicate (n : Nat) : trimSlashes (List.replicate n '/') = [] := by
  unfold trimSlashes
  rw [List.reverse_replicate, List.dropWhile_replicate]
  rfl

/-- More slashes at the end change nothing. -/
theorem trimSlashes_append_replicate (p : Path) (n : Nat) :
    trimSlashes (p ++ List.replicate n '/') = trimSlashes p := by
  rw [trimSlashes_append, if_pos (trimSlashes_replicate n)]

/-- A path whose storage form goes on from that of a directory is within the directory, if it goes
on with a slash, or behind one, or not at all. -/
theorem within_of_storage_eq {p dir : Path} (tail : Path) (h : storage p = storage dir ++ tail)
    (htail : tail = [] ∨ tail.head? = some '/' ∨ (storage dir).getLast? = some '/') :
    within p dir = true := by
  obtain ⟨n, hn⟩ := trimSlashes_append_slashes (storage dir)
  have hdrop : dropFront? (trimSlashes (storage dir)) (storage p) =
      some (List.replicate n '/' ++ tail) := by
    rw [dropFront?_eq_some, h, ← List.append_assoc, ← hn]
  unfold within
  rw [hdrop]
  -- with slashes trimmed off the directory, one of them comes first in what is left
  cases n with
  | succ n => rfl
  | zero =>
    rcases htail with rfl | hhead | hlast
    · rfl
    · cases tail with
      | nil => rfl
      | cons c rest =>
        have hc : c = '/' := by simpa using hhead
        rw [hc]
        rfl
    · -- nothing was trimmed, so the storage form cannot end with a slash
      exfalso
      rw [List.replicate_zero, List.append_nil] at hn
      have hhead : (storage dir).reverse.head? = some '/' := by rw [List.head?_reverse, hlast]
      have hnot := List.head?_dropWhile_not (· == '/') (storage dir).reverse
      have hfix : (storage dir).reverse = (storage dir).reverse.dropWhile (· == '/') := by
        have hrev := congrArg List.reverse hn
        unfold trimSlashes at hrev
        rwa [List.reverse_reverse] at hrev
      rw [← hfix, hhead] at hnot
      cases hnot

/-- A path that starts at the root has no marker to lose. -/
theorem storage_slash_cons (rest : Path) : storage ('/' :: rest) = '/' :: slashed rest := rfl

/-- Among resolved paths everything at or below a directory is within it. -/
theorem within_of_atOrBelow {dir p : Path} (hdir : IsResolved dir) (hp : IsResolved p)
    (h : AtOrBelow dir p) : within p dir = true := by
  obtain ⟨⟨absolute, ups, names⟩, hdir, hroot, rfl⟩ := hdir
  obtain ⟨⟨absolute', ups', names'⟩, hp, hroot', rfl⟩ := hp
  -- both are the root with names behind it, and the names of the directory come first
  cases hroot
  cases hroot'
  cases hdir.rooted rfl
  cases hp.rooted rfl
  have hnames : names <+: names' := by
    unfold AtOrBelow at h
    rw [components_toPath hdir, components_toPath hp] at h
    have htail := (List.cons_prefix_cons.1 h).2
    exact (List.prefix_map_iff_of_injective fun a b hab => by cases hab; rfl).1 htail
  obtain ⟨more, rfl⟩ := hnames
  show within ('/' :: joined (names ++ more)) ('/' :: joined names) = true
  cases names with
  | nil =>
    refine within_of_storage_eq (slashed (joined more)) ?_ (Or.inr (Or.inr rfl))
    rfl
  | cons name rest =>
    cases more with
    | nil =>
      refine within_of_storage_eq [] ?_ (Or.inl rfl)
      rw [List.append_nil, List.append_nil]
    | cons next last =>
      refine within_of_storage_eq ('/' :: slashed (joined (next :: last))) ?_
        (Or.inr (Or.inl rfl))
      rw [storage_slash_cons, storage_slash_cons, joined_append (by simp) (by simp), slashed_append]
      rfl

/-- The marker starts with a backslash. -/
theorem withoutMarker_of_head? {p : Path} (h : p.head? ≠ some '\\') : withoutMarker p = p := by
  have hmarker {front : List Char} : dropFront? ('\\' :: front) p = none := by
    unfold dropFront?
    refine if_neg fun hfront => h ?_
    obtain ⟨rest, rfl⟩ := List.isPrefixOf_iff_prefix.1 hfront
    rfl
  unfold withoutMarker
  rw [show networkMarker = '\\' :: _ from rfl, hmarker, show extendedMarker = '\\' :: _ from rfl,
    hmarker]
  rfl

/-- A path without backslashes is in storage form, up to its marker. -/
theorem slashed_of_backslash_not_mem {p : Path} (h : '\\' ∉ p) : slashed p = p := by
  unfold slashed
  refine (List.map_congr_left fun c hc => ?_).trans (List.map_id p)
  have hne : c ≠ '\\' := fun heq => h (heq ▸ hc)
  exact if_neg hne

/-- Without a backslash there is no marker to lose and nothing to replace. -/
theorem storage_of_backslash_not_mem {p : Path} (h : '\\' ∉ p) : storage p = p := by
  unfold storage
  rw [withoutMarker_of_head? fun hhead => h (List.mem_of_head? hhead),
    slashed_of_backslash_not_mem h]

/-- Text behind a slash adds components, and changes none in front of it. -/
theorem components_append_slash {p : Path} (h : isAbsolute p = true) (more : Path) :
    components (p ++ '/' :: more) = components p ++ componentsOf (segments more) := by
  have habs : isAbsolute (p ++ '/' :: more) = true := by
    cases p with
    | nil => cases h
    | cons c rest => exact h
  unfold components
  rw [if_pos h, if_pos habs, segments_append_slash]
  unfold componentsOf
  rw [List.filter_append, List.map_append, List.cons_append]

/-- Slashes at the end say nothing. -/
theorem components_append_slashes {p : Path} (h : isAbsolute p = true) (n : Nat) :
    components (p ++ List.replicate n '/') = components p := by
  have hslashes (n : Nat) : componentsOf (segments (List.replicate n '/')) = [] := by
    induction n with
    | zero => rfl
    | succ n ih => exact ih
  cases n with
  | zero => rw [List.replicate_zero, List.append_nil]
  | succ n => rw [List.replicate_succ, components_append_slash h, hslashes, List.append_nil]

/-- What trimming leaves of an absolute path has the same components, if it leaves anything. -/
theorem trimSlashes_cases {p : Path} (h : isAbsolute p = true) :
    (trimSlashes p = [] ∧ components p = [.root]) ∨
      (isAbsolute (trimSlashes p) = true ∧ components (trimSlashes p) = components p) := by
  obtain ⟨n, hn⟩ := trimSlashes_append_slashes p
  cases htrim : trimSlashes p with
  | nil =>
    -- nothing but slashes
    left
    rw [htrim, List.nil_append] at hn
    cases n with
    | zero =>
      rw [hn] at h
      cases h
    | succ n =>
      have hroot : isAbsolute ['/'] = true := rfl
      rw [hn, List.replicate_succ]
      exact ⟨rfl, components_append_slashes hroot n⟩
  | cons c rest =>
    right
    have habs : isAbsolute (c :: rest) = true := by
      rw [hn, htrim] at h
      exact h
    refine ⟨habs, ?_⟩
    rw [← components_append_slashes habs n, ← htrim, ← hn]

/-- Among absolute paths without backslashes only what lies at or below a directory is within it: the
slash that has to follow the text of the directory ends its last name. -/
theorem atOrBelow_of_within {dir p : Path} (hdir : isAbsolute dir = true)
    (hp : isAbsolute p = true) (hplain : '\\' ∉ dir) (hplain' : '\\' ∉ p)
    (h : within p dir = true) : AtOrBelow dir p := by
  unfold within at h
  rw [storage_of_backslash_not_mem hplain, storage_of_backslash_not_mem hplain'] at h
  unfold AtOrBelow
  obtain ⟨-, hroot⟩ | ⟨habs, hcomponents⟩ := trimSlashes_cases hdir
  · -- everything absolute is below the root
    rw [hroot]
    unfold components
    rw [if_pos hp]
    exact ⟨_, rfl⟩
  · rw [← hcomponents]
    cases hdrop : dropFront? (trimSlashes dir) p with
    | none =>
      rw [hdrop] at h
      cases h
    | some tail =>
      rw [hdrop] at h
      rw [dropFront?_eq_some.1 hdrop]
      cases tail with
      | nil => exact ⟨[], by rw [List.append_nil, List.append_nil]⟩
      | cons c more =>
        -- the text goes on with a slash, so the last name of the directory is a whole name of `p`
        have hc : c = '/' := by simpa using h
        rw [hc, components_append_slash habs]
        exact List.prefix_append _ _

end Stencil.Path
