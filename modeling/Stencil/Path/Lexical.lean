import Stencil.Path.Basic

/-!
# Lexical normal form

A path is collapsed without looking at any directory: `.` is dropped, `..` removes the name before it,
vanishes at the root, and is kept at the front of a relative path. The result has its shape in its
type: whether it starts at the root, how many `..` it starts with, and the names after them.
`resolve` makes a path absolute first.
-/

namespace Stencil.Path

structure Lexical where
  absolute : Bool
  ups : Nat
  names : List (List Char)
deriving DecidableEq, Repr, Inhabited

namespace Lexical

def empty : Lexical := ⟨false, 0, []⟩

def push (p : Lexical) : Component → Lexical
  | .root => ⟨true, 0, []⟩
  | .here => p
  | .up =>
    if p.names ≠ [] then { p with names := p.names.dropLast }
    else if p.absolute then p
    else { p with ups := p.ups + 1 }
  | .name text => { p with names := p.names ++ [text] }

def ofComponents (components : List Component) : Lexical := components.foldl push empty

def toPath (p : Lexical) : Path :=
  let body := joined (List.replicate p.ups ['.', '.'] ++ p.names)
  if p.absolute then '/' :: body else body

@[simp] theorem push_name (p : Lexical) (text : List Char) :
    p.push (.name text) = { p with names := p.names ++ [text] } := rfl

/-- A name and the `..` after it cancel. -/
@[simp] theorem push_name_up (p : Lexical) (text : List Char) :
    (p.push (.name text)).push .up = p := by
  simp [push]

end Lexical

def lexical (p : Path) : Lexical := Lexical.ofComponents (components p)

def collapse (p : Path) : Path := (lexical p).toPath

/-- Why a path cannot be made absolute: it is empty, or it is relative and there is no current
directory. -/
inductive Unresolved where
  | emptyPath
  | noCurrentDirectory
deriving DecidableEq, Repr

/-- The path made absolute against the current directory and collapsed. -/
def resolve (current : Option Path) (p : Path) : Except Unresolved Path :=
  if p = [] then .error .emptyPath
  else if isAbsolute p then .ok (collapse p)
  else
    match current with
    | some dir => .ok (collapse (join dir p))
    | none => .error .noCurrentDirectory

end Stencil.Path
