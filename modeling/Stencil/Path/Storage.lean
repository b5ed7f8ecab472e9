import Stencil.Path.Basic

/-!
# Storage form and containment

Names and containment tests use one form of a path for every system: an extended-length marker at the
front is removed and every backslash becomes a slash. `within` tests whether one path lies at or below
another by comparing these forms as texts.
-/

namespace Stencil.Path

def dropFront? (front p : List Char) : Option (List Char) :=
  if front.isPrefixOf p then some (p.drop front.length) else none

def networkMarker : List Char := ['\\', '\\', '?', '\\', 'U', 'N', 'C', '\\']

def extendedMarker : List Char := ['\\', '\\', '?', '\\']

/-- Without an extended-length marker; that of a network path leaves two slashes. -/
def withoutMarker (p : Path) : Path :=
  match dropFront? networkMarker p with
  | some rest => '/' :: '/' :: rest
  | none => (dropFront? extendedMarker p).getD p

def slashed (p : Path) : Path := p.map fun c => if c = '\\' then '/' else c

/-- The form of a path in names and comparisons. -/
def storage (p : Path) : Path := slashed (withoutMarker p)

def trimSlashes (p : Path) : Path := (p.reverse.dropWhile (· == '/')).reverse

/-- Whether `p` is the directory `dir` or lies below it. -/
def within (p dir : Path) : Bool :=
  match dropFront? (trimSlashes (storage dir)) (storage p) with
  | some [] => true
  | some (c :: _) => c == '/'
  | none => false

/-- Taking a front away succeeds just on texts that start with it. -/
theorem dropFront?_eq_some {front p rest : List Char} :
    dropFront? front p = some rest ↔ p = front ++ rest := by
  simp only [dropFront?]
  constructor
  · intro h
    split at h
    · rename_i hp
      obtain ⟨t, rfl⟩ := List.isPrefixOf_iff_prefix.1 hp
      simp only [List.drop_left, Option.some.injEq] at h
      rw [h]
    · exact absurd h (by simp)
  · rintro rfl
    simp

theorem slashed_append (a b : Path) : slashed (a ++ b) = slashed a ++ slashed b := by
  simp [slashed]

/-- After the replacement there is one separator only, so paths can be compared as texts. -/
theorem backslash_not_mem_slashed (p : Path) : '\\' ∉ slashed p := by
  simp only [slashed, List.mem_map, not_exists, not_and]
  intro c _ h
  split at h
  · exact absurd h (by decide)
  · contradiction

end Stencil.Path
