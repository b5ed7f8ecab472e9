import Stencil.Template.Lexeme
import Stencil.Template.Peg
import Stencil.Template.Piece

/-!
# The grammar of templates

A template is text with tags between brackets. Each function below is a production; those of the
grammar's rules go through `Parser.rule`, so that a source that does not match is rejected at the
furthest place where a rule went wrong. Literals are kept as texts. A production that contains itself
takes the number of levels it may go down; a source cannot have more levels than characters.
-/

namespace Stencil.Template.Grammar

open Stencil.Template.Parser

abbrev LiteralText := List Char

/-! ## Literals -/

def stringLiteral : Parser Unit := rule do
  let _ ← token scanString
  return ()

/-- Items of an array after the first, with their commas. -/
def furtherItems (item : Parser Unit) : Parser Unit := do
  let _ ← many do
    let _ ← word [',']
    skip
    item
  return ()

/-- Items between brackets. The first may be left out. -/
def bracketed (opening closing : Char) (item : Parser Unit) : Parser Unit := rule do
  let _ ← word [opening]
  skip
  let _ ← optional item
  skip
  furtherItems item
  skip
  let _ ← word [closing]
  return ()

def member (value : Parser Unit) : Parser Unit := do
  stringLiteral
  skip
  let _ ← word [':']
  skip
  value

def plainLiteral : Parser Unit := do
  let _ ← rule (token scanNumber) <|> rule (token (scanKeyword ['n', 'u', 'l', 'l'])) <|>
    rule (token (scanKeyword ['t', 'r', 'u', 'e']) <|>
      token (scanKeyword ['f', 'a', 'l', 's', 'e']))
  return ()

def literal : (levels : Nat) → Parser Unit
  | 0 => fail
  | levels + 1 => rule (stringLiteral <|> bracketed '[' ']' (literal levels) <|>
      bracketed '\x7b' '\x7d' (member (literal levels)) <|> plainLiteral)

/-! ## Paths -/

def pathSign : Parser Unit := do
  let _ ← word ['/'] <|> word ['.']
  return ()

def pathName : Parser PathStep := do
  let text ← rule (token (scanClass isSymbol)) <|> do
    let _ ← word ['[']
    let text ← rule (token fun cs => some (cs.takeWhile (· != ']')).length)
    let _ ← word [']']
    return text
  return .name (String.ofList text)

def pathMark (text : List Char) (step : PathStep) : Parser PathStep := rule do
  let _ ← word text
  return step

/-- A path without what stands for the current value. -/
def pathSteps : Parser (List PathStep) := do
  let _ ← optional ((do let _ ← word ['t', 'h', 'i', 's']; pathSign) <|>
    (do let _ ← word ['.', '/']; return ()))
  let root ← optional (do let s ← pathMark ['@', 'r', 'o', 'o', 't'] .root; pathSign; return s)
  let sign ← optional (pathMark ['@'] .atSign)
  let c ← here
  let ups ← tight (do let s ← pathMark ['.', '.'] .up; pathSign; return s) c.rest.length
  let first ← pathName
  let others ← tight (do pathSign; pathName) c.rest.length
  return root.toList ++ sign.toList ++ ups ++
    (first :: others).filter (· != .name "this")

def reference : Parser Reference := rule do
  let start ← here
  let steps ← pathSteps
  let stop ← here
  return ⟨String.ofList (stop.since start.offset), steps⟩

/-! ## Arguments -/

def identifier : Parser String := do
  return String.ofList (← rule (token scanIdentifier))

/-- The name of a partial that needs no path. -/
def partialName : Parser String := do
  return String.ofList (← rule (token scanPartialName))

/-- A word that cannot be an argument: it is followed by something that is no symbol. -/
def keyword : Parser Unit := do
  let _ ← rule (word ['a', 's'] <|> word ['e', 'l', 's', 'e'])
  skip
  notAhead (do let _ ← token fun cs => if cs.head?.any isSymbol then some 1 else none; return ())

def argument (value : Parser (Operand LiteralText)) :
    Parser (Option String × Operand LiteralText) :=
  (rule do
    let key ← identifier
    skip
    let _ ← word ['=']
    skip
    return (some key, ← value)) <|>
  (do return (none, ← value))

def application (value : Parser (Operand LiteralText)) : Parser (Call LiteralText) := do
  let name ← identifier
  skip
  let args ← many1 (argument value)
  return ⟨.name name, args, none⟩

def pathOperand : Parser (Operand LiteralText) := do return .path (← reference)

def subexpression (value : Parser (Operand LiteralText)) : Parser (Operand LiteralText) := rule do
  let _ ← word ['(']
  skip
  let call ← application value <|> do return { head := ← pathOperand }
  skip
  let _ ← word [')']
  return .call call.head call.args

def value : (levels : Nat) → Parser (Operand LiteralText)
  | 0 => fail
  | levels + 1 => rule do
    notAhead keyword
    skip
    (do return .literal (← textOf (literal levels))) <|> pathOperand <|>
      subexpression (value levels)

/-- A value, a helper without arguments, or a call in parentheses. -/
def name (levels : Nat) : Parser (Operand LiteralText) :=
  subexpression (value levels) <|> pathOperand

def expression (levels : Nat) : Parser (Call LiteralText) :=
  application (value levels) <|> do return { head := ← name levels }

def blockParam : Parser BlockParam := rule do
  let _ ← word ['a', 's']
  skip
  let _ ← word ['|']
  skip
  let first ← identifier
  skip
  let second ← optional identifier
  skip
  let _ ← word ['|']
  return match second with
    | none => .single first
    | some second => .pair first second

def blockCall (levels : Nat) : Parser (Call LiteralText) := do
  let head ← identifier
  skip
  let args ← many (argument (value levels))
  skip
  return ⟨.name head, args, ← optional blockParam⟩

def includeCall (levels : Nat) : Parser (Call LiteralText) := do
  let head ← (do return .name (← partialName)) <|> name levels
  skip
  return ⟨head, ← many (argument (value levels)), none⟩

/-! ## Tags -/

def trimMark : Parser Bool := do
  return (← optional (rule (word ['~']))).isSome

def tag {α : Type} (opening closing : List Char) (content : Parser α) : Parser (Tag × α) := do
  let start ← here
  let _ ← word opening
  skip
  let trimsBefore ← trimMark
  skip
  let x ← content
  skip
  let trimsAfter ← trimMark
  skip
  let _ ← word closing
  let stop ← here
  return (⟨start, stop, trimsBefore, trimsAfter⟩, x)

def opening : List Char := tagMark

def closing : List Char := ['\x7d', '\x7d']

def after {α : Type} (sign : Char) (content : Parser α) : Parser α := do
  let _ ← word [sign]
  skip
  content

def escape : Parser Unit := rule do
  let _ ← token fun
    | '\\' :: rest => (escapedLength rest).map (· + 1)
    | _ => none
  return ()

/-- The tag in front of the second part of a block. -/
def middleTag : Parser Tag := rule do
  notAhead escape
  skip
  let (tag, _) ← tag opening closing (rule (word ['e', 'l', 's', 'e'] <|> word ['^']))
  return tag

def valueTag (levels : Nat) : Parser (Piece LiteralText) := rule do
  notAhead do let _ ← middleTag; return ()
  skip
  let (tag, call) ← tag opening closing (expression levels)
  return .value tag call true

/-- A tag that writes a value as it is. -/
def plainValueTag (levels : Nat) : Parser (Piece LiteralText) := rule do
  let (tag, call) ←
    tag ['\x7b', '\x7b', '\x7b'] ['\x7d', '\x7d', '\x7d'] (expression levels) <|>
    tag opening closing (after '\x7b' do
      let call ← expression levels
      skip
      let _ ← word ['\x7d']
      return call) <|>
    tag opening closing (after '&' do return { head := ← name levels })
  return .value tag call false

def blockStart (content : Parser (Call LiteralText)) : Parser (Tag × Call LiteralText) :=
  rule (tag opening closing (after '#' content))

def blockEnd (name : Parser String) : Parser (Tag × String) :=
  rule (tag opening closing (after '/' name))

/-! ## Templates -/

/-- Text up to brackets. The end of the text is a place where an escape was looked for. -/
def prose (mark : List Char) : Parser Prose := fun unwanted c furthest =>
  let (content, n) := scanProse mark 0 c.rest
  let stop := c.forward n
  ⟨some (⟨c, stop, content⟩, stop), if unwanted then furthest else max furthest stop.offset⟩

/-- Text that is not empty. -/
def text : Parser (Piece LiteralText) := fun unwanted c furthest =>
  match prose tagMark unwanted c furthest with
  | ⟨some (prose, stop), furthest⟩ =>
    ⟨if stop.offset = c.offset then none else some (.text prose, stop), furthest⟩
  | ⟨none, furthest⟩ => ⟨none, furthest⟩

def comment : Parser (Piece LiteralText) := rule do
  let start ← here
  let _ ← token scanComment
  let stop ← here
  return .comment ⟨start, stop, false, false⟩

def block (levels : Nat) (template : Parser (List (Piece LiteralText))) :
    Parser (Piece LiteralText) := do
  let (start, call) ← blockStart (blockCall levels)
  skip
  let body ← template
  skip
  let inverse ← optional do
    let middle ← middleTag
    skip
    return (middle, ← template)
  skip
  let (stop, name) ← blockEnd identifier
  return match inverse with
    | none => .block start call body none [] stop name
    | some (middle, inverse) => .block start call body (some middle) inverse stop name

def rawBlock (levels : Nat) : Parser (Piece LiteralText) := do
  let (start, call) ← rule (tag rawMark (closing ++ closing) (blockCall levels))
  skip
  let content ← prose rawMark
  skip
  let (stop, name) ← rule (tag rawMark (closing ++ closing) (after '/' identifier))
  return .raw start call content stop name

def decorator (levels : Nat) : Parser (Piece LiteralText) := rule do
  let (tag, call) ← tag opening closing (after '*' (blockCall levels))
  return .decorator tag call

def decoratorBlock (levels : Nat) (template : Parser (List (Piece LiteralText))) :
    Parser (Piece LiteralText) := do
  let (start, call) ← blockStart (after '*' (blockCall levels))
  skip
  let body ← template
  skip
  let (stop, name) ← blockEnd identifier
  return .decoratorBlock start call body stop name

def includeTag (levels : Nat) : Parser (Piece LiteralText) := rule do
  let (tag, call) ← tag opening closing (after '>' (includeCall levels))
  return .include tag call

def includeBlock (levels : Nat) (template : Parser (List (Piece LiteralText))) :
    Parser (Piece LiteralText) := do
  let (start, call) ← blockStart (after '>' (includeCall levels))
  skip
  let body ← template
  skip
  let (stop, name) ← blockEnd partialName
  return .includeBlock start call body stop name

/-- A sequence of pieces, nested at most `levels` deep. -/
def template : (levels : Nat) → Parser (List (Piece LiteralText))
  | 0 => fail
  | levels + 1 => rule (many (text <|> valueTag levels <|> plainValueTag levels <|>
      block levels (template levels) <|> rawBlock levels <|> comment <|> decorator levels <|>
      decoratorBlock levels (template levels) <|> includeTag levels <|>
      includeBlock levels (template levels)))

def endOfSource : Parser Unit := rule do
  let _ ← token fun cs => if cs.isEmpty then some 0 else none
  return ()

def document (levels : Nat) : Parser (Document LiteralText) := do
  let pieces ← template levels
  skip
  let stop ← here
  endOfSource
  return ⟨pieces, stop⟩

end Stencil.Template.Grammar
