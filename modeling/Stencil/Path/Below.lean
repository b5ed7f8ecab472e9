import Stencil.Path.Basic

/-!
# The part of a path below a directory

`below? base p` removes the components of `base` from the front of `p` and gives the rest as it was
written, less separators and `.` pieces at its two ends. With an empty base nothing is removed from
the front.
-/

namespace Stencil.Path

def dropIdleEnd (pieces : List (List Char)) : List (List Char) :=
  (pieces.reverse.dropWhile isIdle).reverse

/-- The pieces after those that say `components`, if these come first. -/
def afterComponents : List Component → List (List Char) → Option (List (List Char))
  | [], pieces => some pieces
  | c :: cs, pieces =>
    match pieces.dropWhile isIdle with
    | [] => none
    | piece :: rest => if Component.ofPiece piece = c then afterComponents cs rest else none

def remainder (pieces : List (List Char)) : Path :=
  joined (dropIdleEnd (pieces.dropWhile isIdle))

/-- A path without separators and `.` pieces at its end; its root or leading `.` stays. -/
def trimmedEnd (p : Path) : Path :=
  if isAbsolute p then '/' :: joined (dropIdleEnd (segments p).tail)
  else
    match segments p with
    | ['.'] :: rest =>
      match dropIdleEnd rest with
      | [] => ['.']
      | pieces => joined (['.'] :: pieces)
    | pieces => joined (dropIdleEnd pieces)

/-- The part of `p` below `base`, if the components of `base` come first in `p`. -/
def below? (base p : Path) : Option Path :=
  match components base with
  | [] => some (trimmedEnd p)
  | .root :: cs =>
    if isAbsolute p then (afterComponents cs (segments p).tail).map remainder else none
  | .here :: cs =>
    match isAbsolute p, segments p with
    | false, ['.'] :: rest => (afterComponents cs rest).map remainder
    | _, _ => none
  | cs =>
    if isAbsolute p ∨ (segments p).head? = some ['.'] then none
    else (afterComponents cs (segments p)).map remainder

end Stencil.Path
