/-!
# Lines and white space

A position is what a reader of a message counts: lines from one, columns from one in characters.
A line ends at `\n`; `\r\n` is one line break.

Of white space three notions are needed. `isBlank` is the Unicode property White_Space, which decides
what a `~` in a tag trims. `isSpace` is what may stand between the lexemes of data and of tags.
`isInlineBlank` holds of the space and the tab only and decides whether a tag stands alone on its line.
The functions that cut text at these boundaries work on lists of characters, and text in front of a
point is given nearest character first.
-/

namespace Stencil.Text

/-! ## Positions -/

/-- A place in a text as a line and a column, both counted from one. -/
structure Position where
  line : Nat
  column : Nat
deriving DecidableEq, Repr, Inhabited

def Position.advance (p : Position) : List Char → Position
  | [] => p
  | '\r' :: '\n' :: rest => Position.advance ⟨p.line + 1, 1⟩ rest
  | '\n' :: rest => Position.advance ⟨p.line + 1, 1⟩ rest
  | _ :: rest => Position.advance ⟨p.line, p.column + 1⟩ rest

def Position.after (before : List Char) : Position := Position.advance ⟨1, 1⟩ before

/-! ## White space -/

/-- The Unicode property White_Space. -/
def isBlank (c : Char) : Bool :=
  let n := c.toNat
  (9 ≤ n && n ≤ 13) || n == 0x20 || n == 0x85 || n == 0xA0 || n == 0x1680 ||
    (0x2000 ≤ n && n ≤ 0x200A) || n == 0x2028 || n == 0x2029 || n == 0x202F || n == 0x205F ||
    n == 0x3000

def isSpace (c : Char) : Bool := c == ' ' || c == '\t' || c == '\n' || c == '\r'

def isInlineBlank (c : Char) : Bool := c == ' ' || c == '\t'

def isLineEnd (c : Char) : Bool := c == '\n' || c == '\r'

/-- The text without the longest end made of characters of the class. -/
def dropEndWhile (p : Char → Bool) (cs : List Char) : List Char :=
  (cs.reverse.dropWhile p).reverse

/-- Without its first line break, which is `\n` or `\r\n`. -/
def dropLineBreak : List Char → List Char
  | '\r' :: '\n' :: rest => rest
  | '\n' :: rest => rest
  | cs => cs

/-- Only inline blanks stand before the next line end, and there is one. -/
def blankUpToLineEnd (after : List Char) : Bool :=
  match after.dropWhile isInlineBlank with
  | c :: _ => isLineEnd c
  | [] => false

/-- Only inline blanks stand after the last line end or the start of the text; the text is given
nearest character first. -/
def blankBackToLineStart (before : List Char) : Bool :=
  match before.dropWhile isInlineBlank with
  | c :: _ => isLineEnd c
  | [] => true

/-- The inline blanks right before a point, in reading order. -/
def indentBefore (before : List Char) : List Char := (before.takeWhile isInlineBlank).reverse

end Stencil.Text
