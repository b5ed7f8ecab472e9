import Stencil.Template.Grammar
import Stencil.Template.Rejection

/-!
# Checked documents

A source that matches the grammar may still be rejected: a closing tag has to name the block that it
closes, and a literal has to be one of the data format. The two are checked in the order of the
source. `Document.ofSource` reads a source and checks it; nothing about the options of a template
takes part in this.
-/

namespace Stencil.Template

/-- The content of a string between single quotes as that of one between double quotes. -/
def requote : List Char → List Char
  | '\\' :: '\'' :: rest => '\'' :: requote rest
  | '"' :: rest => '\\' :: '"' :: requote rest
  | c :: rest => c :: requote rest
  | [] => []

/-- The value that a literal writes; a string may stand between single quotes. -/
def literalValue? : List Char → Option Json
  | '\'' :: rest => Json.read? ('"' :: requote rest.dropLast ++ ['"'])
  | text => Json.read? text

/-- The value of a literal, or the rejection of its text. -/
def checkLiteral (text : List Char) : Except Rejection Json :=
  match literalValue? text with
  | some value => .ok value
  | none => .error ⟨.literal (String.ofList text), none⟩

def checkClosing (kind : BlockKind) (call : Call Json) (closing : Tag) (name : String) :
    Except Rejection Unit :=
  if call.head.asName? = some name then .ok ()
  else .error ⟨.closing kind call.head.title name, some closing.start.position⟩

def checkCall (call : Call Grammar.LiteralText) : Except Rejection (Call Json) :=
  call.mapLiterals checkLiteral

/-- A piece with its literals and closing names checked. -/
def checkPiece : Piece Grammar.LiteralText → Except Rejection (Piece Json)
  | .text prose => .ok (.text prose)
  | .comment tag => .ok (.comment tag)
  | .value tag call escaped => do return .value tag (← checkCall call) escaped
  | .block opening call body middle inverse closing name => do
    let call ← checkCall call
    let body ← checkPieces body
    let inverse ← checkPieces inverse
    checkClosing .helper call closing name
    return .block opening call body middle inverse closing name
  | .raw opening call prose closing name => do
    let call ← checkCall call
    checkClosing .helper call closing name
    return .raw opening call prose closing name
  | .decorator tag call => do return .decorator tag (← checkCall call)
  | .decoratorBlock opening call body closing name => do
    let call ← checkCall call
    let body ← checkPieces body
    checkClosing .decorator call closing name
    return .decoratorBlock opening call body closing name
  | .include tag call => do return .include tag (← checkCall call)
  | .includeBlock opening call body closing name => do
    let call ← checkCall call
    let body ← checkPieces body
    checkClosing .decorator call closing name
    return .includeBlock opening call body closing name
where
  checkPieces : List (Piece Grammar.LiteralText) → Except Rejection (List (Piece Json))
    | [] => .ok []
    | x :: xs => do
      let x ← checkPiece x
      return x :: (← checkPieces xs)

namespace Document

/-- The pieces of a source that matches the grammar, with its literals as texts. -/
def parse (source : List Char) : Except Rejection (Document Grammar.LiteralText) :=
  let start := Cursor.start source
  match Grammar.document (source.length + 1) false start 0 with
  | ⟨some (document, _), _⟩ => .ok document
  | ⟨none, furthest⟩ => .error ⟨.unmatched, some (start.forward furthest).position⟩

def ofSource (source : String) : Except Rejection (Document Json) := do
  let document ← parse source.toList
  return ⟨← checkPiece.checkPieces document.pieces, document.stop⟩

end Document

end Stencil.Template
