import Stencil.Json.Reader
import Stencil.Proofs.Sorted

/-!
# Data values that are read

An object of data has each name once, and an integer fits in 64 bits with a sign or without. Every value
that is read from a text is of this form (`wellFormed_of_read?`).
-/

namespace Stencil.Json

/-- Objects have each name once, and integers fit in 64 bits. -/
inductive WellFormed : Json → Prop
  | null : WellFormed .null
  | bool (b : Bool) : WellFormed (.bool b)
  | int {n : Int} (h : Word.holdsSigned 64 n ∨ Word.holdsUnsigned 64 n) :
    WellFormed (.number (.int n))
  | double (x : Binary64) : WellFormed (.number (.double x))
  | string (s : String) : WellFormed (.string s)
  | array {items : List Json} (h : ∀ item ∈ items, WellFormed item) : WellFormed (.array items)
  | object {members : List (String × Json)} (hnames : (members.map Prod.fst).Nodup)
    (h : ∀ member ∈ members, WellFormed member.2) : WellFormed (.object members)

/-- Of two members with one name the later counts, so an object has each name once. -/
theorem wellFormed_ofMembers {members : List (String × Json)}
    (h : ∀ member ∈ members, member.2.WellFormed) : (ofMembers members).WellFormed :=
  .object (Sorted.Ascending.ofList members).nodup fun member hmember =>
    h member (Sorted.mem_of_mem_ofList hmember)

/-- A number that is kept as an integer fits in 64 bits, without a sign or with one. -/
theorem wellFormed_of_numberOf {negative : Bool} {whole : List Char} {fraction : Option (List Char)}
    {exponent : Option Int} {n : Number} (h : numberOf negative whole fraction exponent = some n) :
    WellFormed (.number n) := by
  unfold numberOf at h
  simp only at h
  split at h
  · rename_i hfits
    simp only [Bool.and_eq_true, Bool.or_eq_true, Bool.not_eq_true'] at hfits
    cases h
    refine .int ?_
    -- the guard that chose an integer says just what is needed
    cases negative with
    | false => exact .inr hfits.1.2
    | true => exact .inl (hfits.2.resolve_left nofun).2
  · obtain ⟨x, -, rfl⟩ := Option.map_eq_some_iff.1 h
    exact .double x

theorem wellFormed_of_readNumber {cs rest : List Char} {n : Number}
    (h : readNumber cs = some (n, rest)) : WellFormed (.number n) := by
  unfold readNumber at h
  simp only at h
  -- both signs go the same way
  split at h
  all_goals
    split at h
    · cases h
    · obtain ⟨⟨fraction, more⟩, -, h⟩ := Option.bind_eq_some_iff.1 h
      obtain ⟨⟨exponent, more⟩, -, h⟩ := Option.bind_eq_some_iff.1 h
      obtain ⟨number, hnumber, h⟩ := Option.bind_eq_some_iff.1 h
      cases h
      exact wellFormed_of_numberOf hnumber

section Items

variable {α : Type} {close : Char} {item : Reader α} {P : α → Prop}
  (hitem : ∀ {cs x rest}, item cs = some (x, rest) → P x)

include hitem

/-- If the reader of an item gives only what satisfies `P`, so does the reader of a list. -/
theorem forall_of_readItems {fuel : Nat} {cs rest : List Char} {xs : List α}
    (h : readItems close item fuel cs = some (xs, rest)) : ∀ x ∈ xs, P x := by
  -- by the fuel, one item a step
  induction fuel generalizing cs xs rest with
  | zero => cases h
  | succ fuel ih =>
    obtain ⟨⟨x, more⟩, hx, h⟩ := Option.bind_eq_some_iff.1 h
    simp only at h
    split at h
    · split at h
      · cases h
        exact List.forall_mem_singleton.2 (hitem hx)
      · split at h
        · obtain ⟨⟨xs, more⟩, hxs, h⟩ := Option.bind_eq_some_iff.1 h
          cases h
          exact List.forall_mem_cons.2 ⟨hitem hx, ih hxs⟩
        · cases h
    · cases h

theorem forall_of_readList {cs rest : List Char} {xs : List α}
    (h : readList close item cs = some (xs, rest)) : ∀ x ∈ xs, P x := by
  unfold readList at h
  split at h
  · split at h
    · cases h
      exact nofun
    · exact forall_of_readItems hitem h
  · cases h

end Items

/-- The value of a member is read by the reader of values. -/
theorem of_readMember {value : Reader Json} {cs rest : List Char} {member : String × Json}
    (h : readMember value cs = some (member, rest)) : ∃ start, value start = some (member.2, rest) := by
  obtain ⟨⟨name, more⟩, -, h⟩ := Option.bind_eq_some_iff.1 h
  simp only at h
  split at h
  · obtain ⟨⟨x, more⟩, hx, h⟩ := Option.bind_eq_some_iff.1 h
    cases h
    exact ⟨_, hx⟩
  · cases h

/-- Every value that is read is well-formed: integers fit, and objects have each name once. -/
theorem wellFormed_of_readValue {depth : Nat} {cs rest : List Char} {x : Json}
    (h : readValue depth cs = some (x, rest)) : x.WellFormed := by
  induction depth using Nat.strongRecOn generalizing cs x rest with
  | ind depth ih =>
    -- one case for each kind of value; what is in an array or object is nested less deep
    rw [readValue.eq_def] at h
    split at h
    · cases h
      exact .null
    · cases h
      exact .bool true
    · cases h
      exact .bool false
    · obtain ⟨text, -, ⟨⟩⟩ := Option.map_eq_some_iff.1 h
      exact .string _
    · obtain ⟨⟨items, more⟩, hitems, ⟨⟩⟩ := Option.map_eq_some_iff.1 h
      exact .array (forall_of_readList (fun hitem => ih _ (Nat.lt_succ_self _) hitem) hitems)
    · obtain ⟨⟨members, more⟩, hmembers, ⟨⟩⟩ := Option.map_eq_some_iff.1 h
      refine wellFormed_ofMembers (forall_of_readList (fun hmember => ?_) hmembers)
      obtain ⟨start, hx⟩ := of_readMember hmember
      exact ih _ (Nat.lt_succ_self _) hx
    · obtain ⟨⟨n, more⟩, hn, ⟨⟩⟩ := Option.map_eq_some_iff.1 h
      exact wellFormed_of_readNumber hn

/-- Every value that a text writes is well formed. -/
theorem wellFormed_of_read? {cs : List Char} {x : Json} (h : read? cs = some x) : x.WellFormed := by
  obtain ⟨⟨value, rest⟩, hvalue, h⟩ := Option.bind_eq_some_iff.1 h
  simp only at h
  split at h
  · cases h
    exact wellFormed_of_readValue hvalue
  · cases h

end Stencil.Json
