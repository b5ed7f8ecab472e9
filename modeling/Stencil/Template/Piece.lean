import Stencil.Template.Cursor
import Stencil.Template.Expression

/-!
# Pieces and elements of templates

A template source is a sequence of pieces: text, comments, tags that write a value, blocks, decorators
and inclusions of partials. A piece knows where its tags stand and which of their sides trim; nothing
is decided yet about white space.

A template is a list of elements. All white space has been decided on: what is text is written as it
stands. An element that can fail knows its place in the source.
-/

namespace Stencil.Template

/-! ## Pieces -/

/-- Where a tag stands, and whether a `~` trims on its left and on its right. -/
structure Tag where
  start : Cursor
  stop : Cursor
  trimsBefore : Bool
  trimsAfter : Bool
deriving Repr, Inhabited

/-- Text between tags, without the backslashes of its escapes. -/
structure Prose where
  start : Cursor
  stop : Cursor
  content : List Char
deriving Repr, Inhabited

/-- A piece of a template source. Blocks have an opening and a closing tag with a name; the tag in
front of the second part is none if there is no such part. -/
inductive Piece (L : Type) where
  | text (prose : Prose)
  | comment (tag : Tag)
  | value (tag : Tag) (call : Call L) (escaped : Bool)
  | block (opening : Tag) (call : Call L) (body : List (Piece L)) (middle : Option Tag)
      (inverse : List (Piece L)) (closing : Tag) (name : String)
  | raw (opening : Tag) (call : Call L) (prose : Prose) (closing : Tag) (name : String)
  | decorator (tag : Tag) (call : Call L)
  | decoratorBlock (opening : Tag) (call : Call L) (body : List (Piece L)) (closing : Tag)
      (name : String)
  | include (tag : Tag) (call : Call L)
  | includeBlock (opening : Tag) (call : Call L) (body : List (Piece L)) (closing : Tag)
      (name : String)
deriving Repr, Inhabited

/-- A whole source: its pieces, and where its end is met. -/
structure Document (L : Type) where
  pieces : List (Piece L)
  stop : Cursor
deriving Repr, Inhabited

/-! ## Elements -/

/-- An element of a template. A block has a second part if there is an `else`; a decorator and an
inclusion have a body if they are blocks. The indent of an inclusion goes in front of the lines that
the partial writes. -/
inductive Element where
  | text (content : List Char)
  | comment
  | value (position : Text.Position) (call : Call Json) (escaped : Bool)
  | block (position : Text.Position) (call : Call Json) (body : List Element)
      (inverse : Option (List Element))
  | decorator (position : Text.Position) (call : Call Json) (body : Option (List Element))
  | include (position : Text.Position) (call : Call Json) (indent : Option (List Char))
      (body : Option (List Element))
deriving Repr, Inhabited

end Stencil.Template

namespace Stencil

abbrev Template := List Template.Element

end Stencil
