import Stencil.Text.Lines

/-!
# Places in a source

A cursor is a place in a template source: what stands before it, nearest character first, and what
follows. The number of characters before it is kept at hand.
-/

namespace Stencil.Template

structure Cursor where
  offset : Nat
  before : List Char
  rest : List Char
deriving Repr, Inhabited

namespace Cursor

def start (source : List Char) : Cursor := ⟨0, [], source⟩

/-- The place `n` characters further on, or the end if there are fewer. -/
def forward (c : Cursor) : Nat → Cursor
  | 0 => c
  | n + 1 =>
    match c.rest with
    | [] => c
    | x :: rest => forward ⟨c.offset + 1, x :: c.before, rest⟩ n

def since (c : Cursor) (earlier : Nat) : List Char :=
  (c.before.take (c.offset - earlier)).reverse

def position (c : Cursor) : Text.Position := Text.Position.after c.before.reverse

/-- Moving keeps the source. -/
theorem reverse_before_append_rest_forward (c : Cursor) (n : Nat) :
    (c.forward n).before.reverse ++ (c.forward n).rest = c.before.reverse ++ c.rest := by
  induction n generalizing c with
  | zero => rfl
  | succ n ih =>
    simp only [forward]
    split
    · rfl
    · rename_i x rest h
      rw [ih]
      simp [h]

end Cursor

end Stencil.Template
