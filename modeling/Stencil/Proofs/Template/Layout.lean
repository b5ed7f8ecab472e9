import Stencil.Template.Layout

/-!
# One layout but for the indents

A source is laid out under the settings of the moment, and the only setting that takes part says whether
inclusions keep the indents that they stand behind. It decides on nothing else: with the indents taken
away, the layout is the same under both (`map_unindented_layout`). Laying out goes from piece to piece
with a draft, so this is shown for one piece and every draft, with the pieces inside a block by
induction.
-/

namespace Stencil.Template

mutual

/-- The element with the indents of all inclusions in it taken away. -/
def Element.unindented : Element → Element
  | .text content => .text content
  | .comment => .comment
  | .value position call escaped => .value position call escaped
  | .block position call body none => .block position call (unindentedAll body) none
  | .block position call body (some inverse) =>
    .block position call (unindentedAll body) (some (unindentedAll inverse))
  | .decorator position call none => .decorator position call none
  | .decorator position call (some body) => .decorator position call (some (unindentedAll body))
  | .include position call _ none => .include position call none none
  | .include position call _ (some body) => .include position call none (some (unindentedAll body))

def unindentedAll : List Element → List Element
  | [] => []
  | x :: xs => x.unindented :: unindentedAll xs

end

/-- Elements lose their indents one by one. -/
theorem unindentedAll_eq_map (elements : List Element) :
    unindentedAll elements = elements.map Element.unindented := by
  induction elements with
  | nil => rfl
  | cons x xs ih => rw [unindentedAll, ih, List.map_cons]

namespace Draft

/-- The draft with the indents of its inclusions taken away. -/
def unindented (draft : Draft) : Draft := { draft with done := draft.done.map Element.unindented }

variable (draft : Draft)

theorem flow_unindented : draft.unindented.flow = draft.flow := rfl

theorem elements_unindented :
    draft.unindented.elements = draft.elements.map Element.unindented := List.map_reverse.symm

theorem unindented_push (element : Element) :
    (draft.push element).unindented = draft.unindented.push element.unindented := rfl

theorem unindented_cutEnd (p : Char → Bool) :
    (draft.cutEnd p).unindented = draft.unindented.cutEnd p := by
  obtain ⟨flow, done⟩ := draft
  cases done with
  | nil => rfl
  | cons x done =>
    -- only the last element matters, and of it only whether it is text
    match x with
    | .text content => rfl
    | .comment => rfl
    | .value position call escaped => rfl
    | .block position call body none => rfl
    | .block position call body (some inverse) => rfl
    | .decorator position call none => rfl
    | .decorator position call (some body) => rfl
    | .include position call indent none => rfl
    | .include position call indent (some body) => rfl

theorem unindented_meet (place : Cursor) :
    (draft.meet place).unindented = draft.unindented.meet place := by
  unfold meet
  rw [flow_unindented]
  split
  · rfl
  · rfl

/-- Passing a tag looks at white space and places, neither of which is an indent. -/
theorem unindented_pass (tag : Tag) :
    (draft.pass tag).unindented = draft.unindented.pass tag := by
  -- the tag may trim the text before it
  have hcut :
      (if tag.trimsBefore then (draft.meet tag.start).cutEnd Text.isBlank
        else draft.meet tag.start).unindented =
      if tag.trimsBefore then (draft.unindented.meet tag.start).cutEnd Text.isBlank
        else draft.unindented.meet tag.start := by
    split
    · rw [unindented_cutEnd, unindented_meet]
    · rw [unindented_meet]
  unfold pass
  simp only
  rw [← hcut]
  rfl

theorem unindented_markLine (tag : Tag) :
    (draft.markLine tag).unindented = draft.unindented.markLine tag := rfl

theorem unindented_takeLine (tag : Tag) :
    (draft.takeLine tag).unindented = draft.unindented.takeLine tag := by
  unfold takeLine
  split
  · rw [unindented_markLine, unindented_cutEnd]
  · rw [unindented_markLine]

theorem unindented_passLine (tag : Tag) :
    (draft.passLine tag).unindented = draft.unindented.passLine tag := by
  unfold passLine
  rw [unindented_takeLine, unindented_pass]

theorem unindentedAll_elements {draft after : Draft} (h : draft.unindented = after) :
    unindentedAll draft.elements = after.elements := by
  rw [unindentedAll_eq_map, ← elements_unindented, h]

/-- A block goes behind what was in front of it, with the flow that its last part ends with. -/
theorem unindented_block {outer outer' last last' : Draft} {element element' : Element}
    (houter : outer.unindented = outer') (hlast : last.unindented = last')
    (helement : element.unindented = element') :
    ({ outer with flow := last.flow }.push element).unindented =
      { outer' with flow := last'.flow }.push element' := by
  subst houter hlast helement
  rfl

end Draft

mutual

/-- The draft behind a piece is the same under both settings but for the indents. -/
theorem unindented_layoutPiece (preventIndent : Bool) (draft : Draft) : (piece : Piece Json) →
    (layoutPiece preventIndent draft piece).unindented = layoutPiece true draft.unindented piece
  | .text prose => rfl
  | .comment tag => by
    unfold layoutPiece
    simp only [Draft.unindented_push, Draft.unindented_takeLine, ← Draft.unindented_meet]
    rfl
  | .value tag call escaped => by
    unfold layoutPiece
    rw [Draft.unindented_push, Draft.unindented_pass]
    rfl
  | .block opening call body none inverse closing _ => by
    have hbody := unindented_within preventIndent (draft.unindented_passLine opening) body closing
    exact Draft.unindented_block (draft.unindented_passLine opening) hbody
      (congrArg (Element.block _ call · none) (Draft.unindentedAll_elements hbody))
  | .block opening call body (some middle) inverse closing _ => by
    have hbody := unindented_within preventIndent (draft.unindented_passLine opening) body middle
    have hinverse := unindented_within preventIndent hbody inverse closing
    refine Draft.unindented_block (draft.unindented_passLine opening) hinverse ?_
    rw [← Draft.unindentedAll_elements hbody, ← Draft.unindentedAll_elements hinverse]
    rfl
  | .raw opening call prose closing _ => by
    let inside (outer : Draft) : Draft :=
      { flow := { outer.flow with reached := prose.stop.offset }
        done := [.text (outer.flow.trimStart prose.content)] }
    have hbody : ((inside (draft.passLine opening)).passLine closing).unindented =
        (inside (draft.unindented.passLine opening)).passLine closing := by
      rw [Draft.unindented_passLine, ← draft.unindented_passLine opening]
      rfl
    exact Draft.unindented_block (draft.unindented_passLine opening) hbody
      (congrArg (Element.block _ call · none) (Draft.unindentedAll_elements hbody))
  | .decorator tag call => by
    unfold layoutPiece
    rw [Draft.unindented_push, Draft.unindented_passLine]
    rfl
  | .decoratorBlock opening call body closing _ => by
    have hbody := unindented_within preventIndent (draft.unindented_passLine opening) body closing
    exact Draft.unindented_block (draft.unindented_passLine opening) hbody
      (congrArg (Element.decorator _ call <| some ·) (Draft.unindentedAll_elements hbody))
  -- here an indent is put in, which is dropped on the other side
  | .include tag call => by
    unfold layoutPiece
    rw [Draft.unindented_push, Draft.unindented_markLine, Draft.unindented_pass]
    rfl
  | .includeBlock opening call body closing _ => by
    have hbody := unindented_within preventIndent (draft.unindented_passLine opening) body closing
    exact Draft.unindented_block (draft.unindented_passLine opening) hbody
      (congrArg (Element.include _ call none <| some ·) (Draft.unindentedAll_elements hbody))

/-- The pieces inside a block start with the flow in front of them and end at a tag. -/
theorem unindented_within (preventIndent : Bool) {outer outer' : Draft}
    (houter : outer.unindented = outer') (pieces : List (Piece Json)) (tag : Tag) :
    ((layoutPiece.layoutPieces preventIndent { flow := outer.flow } pieces).passLine tag).unindented =
      (layoutPiece.layoutPieces true { flow := outer'.flow } pieces).passLine tag := by
  subst houter
  rw [Draft.unindented_passLine, unindented_layoutPieces]
  rfl

theorem unindented_layoutPieces (preventIndent : Bool) (draft : Draft) :
    (pieces : List (Piece Json)) →
    (layoutPiece.layoutPieces preventIndent draft pieces).unindented =
      layoutPiece.layoutPieces true draft.unindented pieces
  | [] => rfl
  | piece :: rest => by
    unfold layoutPiece.layoutPieces
    rw [unindented_layoutPieces, unindented_layoutPiece]

end

/-- **One layout but for the indents.** Whatever the setting, the template of a document is the one
without indents once its indents are taken away. -/
theorem map_unindented_layout (preventIndent : Bool) (document : Document Json) :
    (document.layout preventIndent).map Element.unindented = document.layout true := by
  unfold Document.layout
  rw [← Draft.elements_unindented, Draft.unindented_meet, unindented_layoutPieces]
  rfl

end Stencil.Template
