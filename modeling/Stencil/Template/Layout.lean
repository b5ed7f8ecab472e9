import Stencil.Template.Piece
import Stencil.Text.Lines

/-!
# White space around tags

`Document.layout` turns the pieces of a source into a template. On the way it decides which white
space is written: a `~` trims the text on its side, and a tag that stands alone on its line takes the
line with it. White space between two tags belongs to no piece; it becomes text of its own here.
Laying out cannot fail.
-/

namespace Stencil.Template

/-- What the pieces so far mean for those that follow: where the last one ended, whether what follows
is trimmed, and whether the rest of its line is. -/
structure Flow where
  reached : Nat := 0
  trims : Bool := false
  trimsLine : Bool := false
deriving DecidableEq, Repr

namespace Flow

/-- Text at the start of which a line is trimmed if a tag before it stands alone. -/
def trimLine (flow : Flow) (cs : List Char) : List Char :=
  if flow.trimsLine then Text.dropLineBreak (cs.dropWhile Text.isInlineBlank) else cs

/-- Text trimmed as the tags before it ask. -/
def trimStart (flow : Flow) (cs : List Char) : List Char :=
  if flow.trims then cs.dropWhile Text.isBlank else flow.trimLine cs

end Flow

/-- A tag with nothing but inline blanks on its line. -/
def Tag.standsAlone (tag : Tag) : Bool :=
  Text.blankUpToLineEnd tag.stop.rest && Text.blankBackToLineStart tag.start.before

/-- The inline blanks in front of a tag, if there are any. -/
def Tag.indent? (tag : Tag) : Option (List Char) :=
  match Text.indentBefore tag.start.before with
  | [] => none
  | indent => some indent

/-- A sequence being laid out: the flow, and the elements so far, last one first. -/
structure Draft where
  flow : Flow := {}
  done : List Element := []

namespace Draft

def push (draft : Draft) (element : Element) : Draft :=
  { draft with done := element :: draft.done }

/-- With the end of the last element cut, if that is text. -/
def cutEnd (draft : Draft) (p : Char → Bool) : Draft :=
  match draft.done with
  | .text content :: rest => { draft with done := .text (Text.dropEndWhile p content) :: rest }
  | _ => draft

/-- With the white space before a place as text, unless the last tag trims it. -/
def meet (draft : Draft) (place : Cursor) : Draft :=
  if place.offset = draft.flow.reached || draft.flow.trims then draft
  else
    { flow := { draft.flow with trimsLine := false }
      done := .text (draft.flow.trimLine (place.since draft.flow.reached)) :: draft.done }

/-- After a tag that trims as its `~` say. -/
def pass (draft : Draft) (tag : Tag) : Draft :=
  let draft := draft.meet tag.start
  let draft := if tag.trimsBefore then draft.cutEnd Text.isBlank else draft
  { draft with flow := { draft.flow with reached := tag.stop.offset, trims := tag.trimsAfter } }

/-- What follows a tag that may stand alone has its line trimmed if it does. -/
def markLine (draft : Draft) (tag : Tag) : Draft :=
  { draft with flow := { draft.flow with trimsLine := tag.standsAlone } }

/-- A tag that stands alone takes the blanks in front of it with it. -/
def takeLine (draft : Draft) (tag : Tag) : Draft :=
  (if tag.standsAlone then draft.cutEnd Text.isInlineBlank else draft).markLine tag

/-- After a tag that takes its line with it if it stands alone. -/
def passLine (draft : Draft) (tag : Tag) : Draft := (draft.pass tag).takeLine tag

def elements (draft : Draft) : Template := draft.done.reverse

end Draft

/-- What follows a piece, with the piece laid out. `preventIndent` leaves out the indents of
inclusions. -/
def layoutPiece (preventIndent : Bool) (draft : Draft) : Piece Json → Draft
  | .text prose =>
    let content := prose.start.since draft.flow.reached ++ prose.content
    { flow := { draft.flow with reached := prose.stop.offset, trimsLine := false }
      done := .text (draft.flow.trimStart content) :: draft.done }
  | .comment tag =>
    let met := draft.meet tag.start
    let passed := { met with flow := { met.flow with reached := tag.stop.offset } }
    (passed.takeLine tag).push .comment
  | .value tag call escaped =>
    (draft.pass tag).push (.value tag.start.position call escaped)
  | .block opening call body middle inverse closing _ =>
    let outer := draft.passLine opening
    let body := layoutPieces preventIndent { flow := outer.flow } body
    match middle with
    | none =>
      let body := body.passLine closing
      { outer with flow := body.flow }.push
        (.block opening.start.position call body.elements none)
    | some middle =>
      let body := body.passLine middle
      let inverse := (layoutPieces preventIndent { flow := body.flow } inverse).passLine closing
      { outer with flow := inverse.flow }.push
        (.block opening.start.position call body.elements (some inverse.elements))
  | .raw opening call prose closing _ =>
    let outer := draft.passLine opening
    let body : Draft :=
      { flow := { outer.flow with reached := prose.stop.offset }
        done := [.text (outer.flow.trimStart prose.content)] }
    let body := body.passLine closing
    { outer with flow := body.flow }.push (.block opening.start.position call body.elements none)
  | .decorator tag call =>
    (draft.passLine tag).push (.decorator tag.start.position call none)
  | .decoratorBlock opening call body closing _ =>
    let outer := draft.passLine opening
    let body := (layoutPieces preventIndent { flow := outer.flow } body).passLine closing
    { outer with flow := body.flow }.push
      (.decorator opening.start.position call (some body.elements))
  | .include tag call =>
    let indent := if preventIndent || tag.trimsBefore then none else tag.indent?
    ((draft.pass tag).markLine tag).push (.include tag.start.position call indent none)
  | .includeBlock opening call body closing _ =>
    let outer := draft.passLine opening
    let body := (layoutPieces preventIndent { flow := outer.flow } body).passLine closing
    { outer with flow := body.flow }.push
      (.include opening.start.position call none (some body.elements))
where
  layoutPieces (preventIndent : Bool) (draft : Draft) : List (Piece Json) → Draft
    | [] => draft
    | piece :: rest => layoutPieces preventIndent (layoutPiece preventIndent draft piece) rest

def Document.layout (preventIndent : Bool) (document : Document Json) : Template :=
  ((layoutPiece.layoutPieces preventIndent {} document.pieces).meet document.stop).elements

end Stencil.Template
