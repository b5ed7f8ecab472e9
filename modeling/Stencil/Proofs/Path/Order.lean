import Stencil.Proofs.Path.Containment

/-!
# Containment as an order

The test `within` compares two texts: that of the directory loses the slashes at its end first, that of
the path keeps them. In a chain of tests the path in the middle plays both parts. Its slashes make no
difference: cut at its slashes, a storage form without slashes at the end is a list of pieces, and a
path is within a directory just if the pieces of the directory come first (`within_iff_pieces`). So
containment inherits the laws of prefixes.

A marker in front holds no slash, so it is the same for a path and for what goes on from it behind a
slash (`storage_append_slash`).

* **`within_preorder`**: containment is a preorder, and what is joined to a path stays where it is.
-/

namespace Stencil.Path

/-! ## Pieces that are compared -/

/-- The pieces of the storage form, without slashes at the end. -/
def storagePieces (p : Path) : List (List Char) := segments (trimSlashes (storage p))

theorem trimSlashes_trimSlashes (p : Path) : trimSlashes (trimSlashes p) = trimSlashes p := by
  obtain ⟨n, hn⟩ := trimSlashes_append_slashes p
  calc trimSlashes (trimSlashes p)
      = trimSlashes (trimSlashes p ++ List.replicate n '/') := (trimSlashes_append_replicate _ n).symm
    _ = trimSlashes p := by rw [← hn]

/-- Different texts have different pieces. -/
theorem storagePieces_eq_iff {p q : Path} :
    storagePieces p = storagePieces q ↔ trimSlashes (storage p) = trimSlashes (storage q) := by
  refine ⟨fun h => ?_, congrArg segments⟩
  rw [← joined_segments (trimSlashes (storage p)), ← joined_segments (trimSlashes (storage q))]
  exact congrArg joined h

/-- What the test says of the two storage forms. -/
theorem within_iff_exists {p dir : Path} :
    within p dir = true ↔
      ∃ tail, storage p = trimSlashes (storage dir) ++ tail ∧ ∀ c ∈ tail.head?, c = '/' := by
  unfold within
  constructor
  · intro h
    cases hdrop : dropFront? (trimSlashes (storage dir)) (storage p) with
    | none =>
      rw [hdrop] at h
      cases h
    | some tail =>
      rw [hdrop] at h
      refine ⟨tail, dropFront?_eq_some.1 hdrop, ?_⟩
      -- what is left is empty or goes on with a slash
      cases tail with
      | nil => simp
      | cons c rest => simpa using h
  · rintro ⟨tail, htail, hslash⟩
    rw [dropFront?_eq_some.2 htail]
    cases tail with
    | nil => rfl
    | cons c rest => simpa using hslash

/-- **Containment is the order of prefixes** of the pieces that are compared. -/
theorem within_iff_pieces {p dir : Path} :
    within p dir = true ↔ storagePieces dir <+: storagePieces p := by
  rw [within_iff_exists]
  unfold storagePieces
  constructor
  · rintro ⟨tail, htail, hslash⟩
    have htrim := trimSlashes_trimSlashes (storage dir)
    rw [htail, trimSlashes_append, htrim]
    split
    · exact List.prefix_refl _
    · -- the slash that the tail begins with is left, and cuts the pieces of the directory off
      rename_i hne
      cases tail with
      | nil => exact absurd rfl hne
      | cons c rest =>
        have hc : c = '/' := hslash c rfl
        have hsplit := trimSlashes_append ['/'] rest
        rw [hc, ← List.singleton_append, hsplit] at hne ⊢
        split at hne
        · exact absurd rfl hne
        · rename_i hrest
          rw [if_neg hrest, List.singleton_append, segments_append_slash]
          exact List.prefix_append _ _
  · rintro ⟨more, hmore⟩
    obtain ⟨n, hn⟩ := trimSlashes_append_slashes (storage p)
    have hjoined : trimSlashes (storage p) = joined (segments (trimSlashes (storage dir)) ++ more) := by
      rw [hmore, joined_segments]
    cases more with
    | nil =>
      -- the same text, but for slashes at the end of the path
      rw [List.append_nil, joined_segments] at hjoined
      refine ⟨List.replicate n '/', by rw [← hjoined, ← hn], fun c hc => ?_⟩
      exact List.eq_of_mem_replicate (List.mem_of_head? hc)
    | cons piece rest =>
      rw [joined_append (segments_ne_nil _) (List.cons_ne_nil piece rest), joined_segments] at hjoined
      refine ⟨'/' :: joined (piece :: rest) ++ List.replicate n '/', ?_, by simp⟩
      rw [← List.append_assoc, ← hjoined, ← hn]

/-! ## Paths that go on -/

/-- A text without a slash comes first just if it does so in front of a slash. -/
theorem dropFront?_append_slash {front : List Char} (h : '/' ∉ front) (p more : Path) :
    dropFront? front (p ++ '/' :: more) = (dropFront? front p).map (· ++ '/' :: more) := by
  cases hp : dropFront? front p with
  | some rest => rw [dropFront?_eq_some.1 hp, List.append_assoc, dropFront?_eq_some.2 rfl]; rfl
  | none =>
    cases hlonger : dropFront? front (p ++ '/' :: more) with
    | none => rfl
    | some rest =>
      exfalso
      -- the text ends in front of the slash, and so comes first in `p`, or it holds the slash
      obtain ⟨end', hfront, hslash⟩ | ⟨rest', hfront, -⟩ :=
        List.append_eq_append_iff.1 (dropFront?_eq_some.1 hlonger)
      · cases end' with
        | nil =>
          rw [hfront, List.append_nil, dropFront?_eq_some.2 (List.append_nil p).symm] at hp
          cases hp
        | cons c rest' =>
          obtain ⟨hc, -⟩ := List.cons.inj hslash
          refine h ?_
          rw [hfront, ← hc]
          exact List.mem_append_right p List.mem_cons_self
      · rw [dropFront?_eq_some.2 hfront] at hp
        cases hp

/-- Behind a slash the storage form goes on with what the path goes on with. -/
theorem storage_append_slash (p more : Path) :
    storage (p ++ '/' :: more) = storage p ++ '/' :: slashed more := by
  have hmarker : withoutMarker (p ++ '/' :: more) = withoutMarker p ++ '/' :: more := by
    unfold withoutMarker
    rw [dropFront?_append_slash (by decide), dropFront?_append_slash (by decide)]
    cases dropFront? networkMarker p with
    | some rest => rfl
    | none => cases dropFront? extendedMarker p <;> rfl
  unfold storage
  rw [hmarker, slashed_append]
  rfl

/-- What is joined to a path is within it. -/
theorem within_join {p rel : Path} (hp : p ≠ []) (hrel : isAbsolute rel = false) :
    within (join p rel) p = true := by
  unfold join
  rw [if_neg (by simp [hp, hrel])]
  -- a directory that ends in a slash is joined without another one
  split
  · rename_i hlast
    obtain ⟨front, rfl⟩ := List.getLast?_eq_some_iff.1 hlast
    have hstorage : storage (front ++ ['/']) = storage front ++ ['/'] := storage_append_slash front []
    refine within_of_storage_eq (slashed rel) ?_ (.inr (.inr ?_))
    · rw [hstorage, List.append_assoc, List.append_assoc]
      exact storage_append_slash front rel
    · rw [hstorage, List.getLast?_append]
      rfl
  · exact within_of_storage_eq ('/' :: slashed rel) (storage_append_slash p rel) (.inr (.inl rfl))

/-- A name has no slash, so none at its front. -/
theorem IsName.isAbsolute_eq_false {name : List Char} (h : IsName name) :
    isAbsolute name = false := by
  rw [isAbsolute, beq_eq_false_iff_ne]
  exact fun hhead => h.noSlash (List.mem_of_head? hhead)

/-! ## The order -/

/-- The pieces of the outer directory come first in those of the inner one. -/
theorem within_trans {p q r : Path} (hpq : within p q = true) (hqr : within q r = true) :
    within p r = true := by
  rw [within_iff_pieces] at hpq hqr ⊢
  exact List.IsPrefix.trans hqr hpq

/-- **Containment of paths is a preorder.** Every path is within itself, and a path within another is
within all that the other is within. Two paths are within one another just if their storage forms are
the same but for slashes at the end. A name joined to a path that is not empty gives a path within all
that the path is within. -/
theorem within_preorder (p : Path) :
    within p p = true ∧
    (∀ q r, within p q = true → within q r = true → within p r = true) ∧
    (∀ q, within p q = true ∧ within q p = true ↔
      trimSlashes (storage p) = trimSlashes (storage q)) ∧
    ∀ q name, p ≠ [] → within p q = true → IsName name → within (join p name) q = true := by
  refine ⟨within_iff_pieces.2 (List.prefix_refl _), fun q r => within_trans, fun q => ?_,
    fun q name hp hq hname => ?_⟩
  · -- two directories within each other have the same pieces, by their number
    rw [within_iff_pieces, within_iff_pieces, ← storagePieces_eq_iff]
    constructor
    · rintro ⟨hqp, hpq⟩
      exact hpq.eq_of_length_le hqp.length_le
    · intro h
      rw [h]
      exact ⟨List.prefix_refl _, List.prefix_refl _⟩
  · exact within_trans (within_join hp hname.isAbsolute_eq_false) hq

/-- With markers, both separators, slashes at the end, and a name that holds a backslash. -/
theorem within_of_marked_site :
    within "\\\\?\\C:\\site\\partials\\".toList "\\\\?\\C:\\".toList = true ∧
    within (join "\\\\?\\C:\\site\\partials\\".toList "a\\b".toList) "C:/site//".toList = true := by
  have hsite : within "\\\\?\\C:\\site\\partials\\".toList "C:/site//".toList = true := by decide
  have hroot : within "C:/site//".toList "\\\\?\\C:\\".toList = true := by decide
  have hname : IsName "a\\b".toList := ⟨rfl, by decide, by decide⟩
  obtain ⟨-, htrans, -, hjoin⟩ := within_preorder "\\\\?\\C:\\site\\partials\\".toList
  exact ⟨htrans _ _ hsite hroot, hjoin _ _ (by decide) hsite hname⟩

end Stencil.Path
