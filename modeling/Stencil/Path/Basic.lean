/-!
# Paths

A path is a text whose pieces are separated by `/`. `segments` cuts it into its pieces and `joined`
puts them together again, losing nothing (`joined_segments`). `components` reads the pieces: an empty
piece or a `.` says nothing, except that a leading `.` of a relative path is kept.
-/

namespace Stencil

abbrev Path := List Char

namespace Path

/-- The pieces between the separators; there is always one. -/
def segments : List Char → List (List Char)
  | [] => [[]]
  | c :: rest =>
    if c = '/' then [] :: segments rest
    else
      match segments rest with
      | [] => [[c]]
      | piece :: pieces => (c :: piece) :: pieces

def joined : List (List Char) → List Char
  | [] => []
  | [piece] => piece
  | piece :: pieces => piece ++ '/' :: joined pieces

def isAbsolute (p : Path) : Bool := p.head? == some '/'

/-- The pieces that say nothing. -/
def isIdle (piece : List Char) : Bool := piece == [] || piece == ['.']

inductive Component where
  | root
  | here
  | up
  | name (text : List Char)
deriving DecidableEq, Repr

/-- The component of a piece that is not idle. -/
def Component.ofPiece (piece : List Char) : Component :=
  if piece = ['.', '.'] then .up else .name piece

/-- The components of pieces, none for an idle piece. -/
def componentsOf (pieces : List (List Char)) : List Component :=
  (pieces.filter (!isIdle ·)).map Component.ofPiece

/-- The components of a path: the root of an absolute one, the leading `.` of a relative one, and one
for each piece that is not idle. -/
def components (p : Path) : List Component :=
  if isAbsolute p then .root :: componentsOf (segments p)
  else if (segments p).head? = some ['.'] then .here :: componentsOf (segments p)
  else componentsOf (segments p)

/-- `p` seen from the directory `base`: an absolute `p` stays as it is. -/
def join (base p : Path) : Path :=
  if isAbsolute p ∨ base = [] then p
  else if base.getLast? = some '/' then base ++ p
  else base ++ '/' :: p

/-- Even the empty text has one piece. -/
theorem segments_ne_nil (cs : List Char) : segments cs ≠ [] := by
  cases cs with
  | nil => simp [segments]
  | cons c rest =>
    simp only [segments]
    split
    · simp
    · split <;> simp

/-- Cutting loses nothing: the pieces with separators between them are the text again. -/
theorem joined_segments (cs : List Char) : joined (segments cs) = cs := by
  induction cs with
  | nil => rfl
  | cons c rest ih =>
    have hne := segments_ne_nil rest
    -- a separator starts an empty piece, any other character goes into the first piece
    simp only [segments]
    split
    · rename_i hc
      subst hc
      cases h : segments rest with
      | nil => exact absurd h hne
      | cons piece pieces => rw [h] at ih; simp [joined, ih]
    · cases h : segments rest with
      | nil => exact absurd h hne
      | cons piece pieces =>
        rw [h] at ih
        cases pieces with
        | nil => simp only [joined] at ih ⊢; rw [ih]
        | cons next more => simp only [joined, List.cons_append] at ih ⊢; rw [ih]

end Path

end Stencil
