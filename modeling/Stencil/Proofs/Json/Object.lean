import Stencil.Json.Printer
import Stencil.Proofs.Json.Literal

/-!
# Objects read back

`Reads` says of a text that a reader takes it for a value, whatever follows it. The text of an
object is read if the texts of its members are: `reads_object` goes from the values of the members
to the object, so a nested value needs one step for each level. What is read has its members in
ascending order.
-/

namespace Stencil.Json

/-! ## Texts that are read whole -/

/-- A character that an item of an object or array can start with: neither a blank nor a closing
bracket. -/
def opensItem (c : Char) : Bool := !Text.isSpace c && c != ']' && c != '\x7d'

/-- What opens a value is not skipped as white space. -/
theorem isSpace_of_opensItem {c : Char} (h : opensItem c = true) : Text.isSpace c = false := by
  unfold opensItem at h
  simp only [Bool.and_eq_true, Bool.not_eq_true'] at h
  exact h.1.1

theorem skipSpace_cons {c : Char} (h : Text.isSpace c = false) (rest : List Char) :
    skipSpace (c :: rest) = c :: rest := by
  unfold skipSpace
  rw [List.dropWhile_cons_of_neg (by simp [h])]

/-- The reader takes this text for this value and leaves what follows. -/
structure Reads {α : Type} (read : Reader α) (text : List Char) (value : α) : Prop where
  opens : ∃ c rest, text = c :: rest ∧ opensItem c = true
  reads : ∀ rest, read (text ++ rest) = some (value, rest)

section Reads

variable {α : Type} {read : Reader α} {text : List Char} {value : α}

/-- The empty text is no value. -/
theorem Reads.length_pos (h : Reads read text value) : 0 < text.length := by
  obtain ⟨c, rest, rfl, -⟩ := h.opens
  simp

/-- No blank is skipped in front of it. -/
theorem Reads.skipSpace_append (h : Reads read text value) (rest : List Char) :
    skipSpace (text ++ rest) = text ++ rest := by
  obtain ⟨c, more, rfl, hopens⟩ := h.opens
  exact skipSpace_cons (isSpace_of_opensItem hopens) (more ++ rest)

end Reads

/-! ## Lists -/

section Lists

variable {α β : Type} {close : Char} {item : Reader α} {text : β → List Char} {value : β → α}

/-- Items with commas between them are read up to the closing character. -/
theorem readItems_intercalate (hclose : Text.isSpace close = false) (hcomma : close ≠ ',') (x : β)
    (xs : List β) (h : ∀ y ∈ x :: xs, Reads item (text y) (value y)) {fuel : Nat}
    (hfuel : xs.length < fuel) (rest : List Char) :
    readItems close item fuel ([','].intercalate ((x :: xs).map text) ++ close :: rest) =
      some ((x :: xs).map value, rest) := by
  have hx := h x List.mem_cons_self
  -- on the items behind the first, which the closing character or a comma follows
  induction xs generalizing x fuel with
  | nil =>
    cases fuel with
    | zero => cases hfuel
    | succ fuel =>
      rw [List.map_singleton, List.intercalate_singleton]
      unfold readItems
      simp only [hx.skipSpace_append, hx.reads, Option.bind_eq_bind, Option.bind_some,
        skipSpace_cons hclose, beq_self_eq_true, if_true, List.map_singleton]
  | cons next more ih =>
    cases fuel with
    | zero => cases hfuel
    | succ fuel =>
      have hnext := h next (List.mem_cons_of_mem x List.mem_cons_self)
      have htail := ih next (fun y hy => h y (List.mem_cons_of_mem x hy))
        (Nat.lt_of_succ_lt_succ hfuel) hnext
      rw [List.map_cons, List.map_cons, List.intercalate_cons_cons, ← List.map_cons,
        List.append_assoc, List.append_assoc, List.singleton_append]
      unfold readItems
      simp only [hx.skipSpace_append, hx.reads, Option.bind_eq_bind, Option.bind_some,
        skipSpace_cons (c := ',') rfl, beq_iff_eq, hcomma.symm, if_false, if_true, htail]
      rfl

/-- There are no more items than characters, so the reader's fuel, the length of the text, lasts. -/
theorem length_le_length_intercalate (xs : List β) (h : ∀ y ∈ xs, Reads item (text y) (value y)) :
    xs.length ≤ ([','].intercalate (xs.map text)).length := by
  induction xs with
  | nil => exact Nat.zero_le _
  | cons x xs ih =>
    have hpos := (h x List.mem_cons_self).length_pos
    have hrest := ih fun y hy => h y (List.mem_cons_of_mem x hy)
    -- a comma is added in front of every item but the first
    cases xs with
    | nil =>
      rw [List.map_singleton, List.intercalate_singleton]
      exact hpos
    | cons next more =>
      rw [List.map_cons, List.map_cons, List.intercalate_cons_cons, ← List.map_cons]
      simp only [List.length_append, List.length_cons, List.length_nil] at hrest ⊢
      omega

/-- A list is read with any number of items. -/
theorem readList_intercalate (hclose : Text.isSpace close = false) (hcomma : close ≠ ',')
    (hends : opensItem close = false) (xs : List β)
    (h : ∀ y ∈ xs, Reads item (text y) (value y)) (rest : List Char) :
    readList close item ([','].intercalate (xs.map text) ++ close :: rest) =
      some (xs.map value, rest) := by
  cases xs with
  | nil =>
    unfold readList
    rw [List.map_nil, List.intercalate_nil, List.nil_append, skipSpace_cons hclose]
    simp
  | cons x xs =>
    have hlength := length_le_length_intercalate (x :: xs) h
    have hfuel :
        xs.length < ([','].intercalate ((x :: xs).map text) ++ close :: rest).length + 1 := by
      simp only [List.length_append, List.length_cons] at hlength ⊢
      omega
    have hitems := readItems_intercalate hclose hcomma x xs h hfuel rest
    -- the text starts as its first item does
    obtain ⟨c, tail, htext, hopens⟩ := (h x List.mem_cons_self).opens
    obtain ⟨tail', hstart⟩ : ∃ tail',
        [','].intercalate ((x :: xs).map text) ++ close :: rest = c :: tail' := by
      cases xs with
      | nil => exact ⟨tail ++ close :: rest, by simp [List.intercalate_singleton, htext]⟩
      | cons next more =>
        rw [List.map_cons, List.map_cons, List.intercalate_cons_cons, htext]
        exact ⟨_, rfl⟩
    have hne : c ≠ close := by
      rintro rfl
      rw [hends] at hopens
      cases hopens
    unfold readList
    rw [hstart] at hitems ⊢
    rw [skipSpace_cons (isSpace_of_opensItem hopens)]
    simp only [beq_iff_eq, hne, if_false]
    exact hitems

end Lists

/-! ## Values -/

theorem reads_bool (depth : Nat) (b : Bool) :
    Reads (readValue depth) (compact (.bool b)).toList (.bool b) := by
  cases b with
  | true => exact ⟨⟨'t', _, rfl, by decide⟩, fun rest => by cases depth <;> rfl⟩
  | false => exact ⟨⟨'f', _, rfl, by decide⟩, fun rest => by cases depth <;> rfl⟩

/-- The text of a member is read if that of its value is. -/
theorem reads_member {read : Reader Json} {text : List Char} {value : Json}
    (h : Reads read text value) (name : String) :
    Reads (readMember read) ((literal name).toList ++ ':' :: text) (name, value) := by
  constructor
  · rw [toList_literal]
    exact ⟨'"', _, rfl, by decide⟩
  · intro rest
    rw [List.append_assoc, List.cons_append]
    unfold readMember
    simp only [readString_literal, Option.bind_eq_bind, Option.bind_some,
      skipSpace_cons (c := ':') rfl, h.skipSpace_append, h.reads]
    rfl

/-- The texts of members as a map, which the lemmas on lists apply to. -/
theorem memberTexts_eq_map (members : List (String × Json)) :
    compact.memberTexts members =
      members.map fun member => literal member.1 ++ ":" ++ compact member.2 := by
  induction members with
  | nil => rfl
  | cons member rest ih => rw [compact.memberTexts, ih, List.map_cons]

/-- The text of an object, by the texts of its members. -/
theorem toList_compact_object (members : List (String × Json)) :
    (compact (.object members)).toList =
      '\x7b' :: ([','].intercalate
        (members.map fun member => (literal member.1).toList ++ ':' :: (compact member.2).toList) ++
          ['\x7d']) := by
  have htexts : (compact.memberTexts members).map String.toList =
      members.map fun member => (literal member.1).toList ++ ':' :: (compact member.2).toList := by
    rw [memberTexts_eq_map, List.map_map]
    refine List.map_congr_left fun member _ => ?_
    simp
  rw [← htexts]
  simp [compact, String.toList_intercalate]

/-- The text of an object is read if those of its values are. -/
theorem reads_object {depth : Nat} {members : List (String × Json)}
    (h : ∀ member ∈ members, Reads (readValue depth) (compact member.2).toList member.2) :
    Reads (readValue (depth + 1)) (compact (.object members)).toList (ofMembers members) := by
  rw [toList_compact_object]
  refine ⟨⟨'\x7b', _, rfl, by decide⟩, fun rest => ?_⟩
  rw [List.cons_append, List.append_assoc, List.singleton_append]
  show (readList '\x7d' (readMember (readValue depth)) _).map _ = _
  rw [readList_intercalate rfl (by decide) rfl members
    (fun member hmember => reads_member (h member hmember) member.1) rest, List.map_id']
  rfl

/-- A text that is read whole is the text of a value. -/
theorem Reads.read?_eq {text : List Char} {value : Json} (h : Reads (readValue maxDepth) text value) :
    read? text = some value := by
  have hskip := h.skipSpace_append []
  have hread := h.reads []
  rw [List.append_nil] at hskip hread
  unfold read?
  rw [hskip, hread]
  rfl

/-! ## One line -/

theorem oneLine_intercalate {pieces : List (List Char)} (h : ∀ piece ∈ pieces, OneLine piece) :
    OneLine ([','].intercalate pieces) := by
  induction pieces with
  | nil => exact List.forall_mem_nil _
  | cons piece rest ih =>
    have hpiece := h piece List.mem_cons_self
    have hrest := ih fun other hother => h other (List.mem_cons_of_mem piece hother)
    cases rest with
    | nil => rwa [List.intercalate_singleton]
    | cons next more =>
      rw [List.intercalate_cons_cons]
      exact oneLine_append.2 ⟨oneLine_append.2 ⟨hpiece, by decide⟩, hrest⟩

/-- The text of an object stands on one line if those of its values do. -/
theorem oneLine_object {members : List (String × Json)}
    (h : ∀ member ∈ members, OneLine (compact member.2).toList) :
    OneLine (compact (.object members)).toList := by
  have hmembers : ∀ piece ∈ members.map fun member =>
      (literal member.1).toList ++ ':' :: (compact member.2).toList, OneLine piece := by
    intro piece hpiece
    obtain ⟨member, hmember, rfl⟩ := List.mem_map.1 hpiece
    have hvalue : OneLine (':' :: (compact member.2).toList) :=
      oneLine_cons.2 ⟨by decide, h member hmember⟩
    exact oneLine_append.2 ⟨oneLine_literal member.1, hvalue⟩
  rw [toList_compact_object]
  exact oneLine_cons.2 ⟨by decide, oneLine_append.2 ⟨oneLine_intercalate hmembers, by decide⟩⟩

end Stencil.Json
