import Stencil.Json.Reader

/-!
# Lexemes of tags

The parts of a template source that are read without skipping white space: identifiers, numbers,
strings, comments and text. A scanner gives the length of the lexeme at the front of what follows.
-/

namespace Stencil.Template

abbrev Scanner := List Char → Option Nat

def isDigit (c : Char) : Bool := '0' ≤ c && c ≤ '9'

def isAlphanumeric (c : Char) : Bool :=
  isDigit c || ('a' ≤ c && c ≤ 'z') || ('A' ≤ c && c ≤ 'Z')

/-- The characters of identifiers and path names: ASCII letters, digits and three signs, and every
character beyond ASCII. -/
def isSymbol (c : Char) : Bool :=
  isAlphanumeric c || c == '-' || c == '_' || c == '$' || 0x80 ≤ c.toNat

def isPartialSymbol (c : Char) : Bool :=
  isAlphanumeric c || c == '-' || c == '_' || c == '/' || c == '.' || 0x80 ≤ c.toNat

def scanClass (p : Char → Bool) : Scanner := fun cs =>
  match (cs.takeWhile p).length with
  | 0 => none
  | n => some n

def scanIdentifier : Scanner := scanClass isSymbol

/-- The length of a quoted partial name after its opening quote. -/
def scanQuotedRest : Scanner
  | [] => none
  | '\'' :: _ => some 1
  | '\\' :: '\'' :: rest => (scanQuotedRest rest).map (· + 2)
  | _ :: rest => (scanQuotedRest rest).map (· + 1)

/-- A partial name: symbols, or one or more characters between single quotes. -/
def scanPartialName : Scanner := fun cs =>
  match scanClass isPartialSymbol cs with
  | some n => some n
  | none =>
    match cs with
    | '\'' :: '\'' :: _ => none
    | '\'' :: rest => (scanQuotedRest rest).map (· + 1)
    | _ => none

/-- A word that no symbol follows. -/
def scanKeyword (text : List Char) : Scanner := fun cs =>
  if text.isPrefixOf cs && !(cs.drop text.length).head?.any isSymbol then some text.length else none

def digitCount (cs : List Char) : Nat := (cs.takeWhile isDigit).length

/-- The length of an exponent at the front, zero if there is none. -/
def exponentLength : List Char → Nat
  | 'E' :: '-' :: rest => if digitCount rest = 0 then 0 else digitCount rest + 2
  | 'E' :: rest => if digitCount rest = 0 then 0 else digitCount rest + 1
  | _ => 0

/-- A number that no symbol follows: digits with an optional sign, point, further digits and
exponent. -/
def scanNumber : Scanner := fun cs =>
  let sign := if cs.head? = some '-' then 1 else 0
  let rest := cs.drop sign
  let whole := digitCount rest
  if whole = 0 then none
  else
    let rest := rest.drop whole
    let point := if rest.head? = some '.' then 1 else 0
    let rest := rest.drop point
    let places := digitCount rest
    let rest := rest.drop places
    let exponent := exponentLength rest
    if (rest.drop exponent).head?.any isSymbol then none
    else some (sign + whole + point + places + exponent)

/-- The escapes of one letter in a string, the quote apart. -/
def isShortEscape (c : Char) : Bool := ['\\', '/', 'b', 'f', 'n', 'r', 't'].contains c

def isHexDigit (c : Char) : Bool := (Json.hexValue c).isSome

/-- The length of a string after its opening quote. -/
def scanStringRest (quote : Char) : Scanner
  | [] => none
  | '\\' :: 'u' :: a :: b :: c :: d :: rest =>
    if isHexDigit a && isHexDigit b && isHexDigit c && isHexDigit d then
      (scanStringRest quote rest).map (· + 6)
    else none
  | '\\' :: c :: rest =>
    if c == quote || isShortEscape c then (scanStringRest quote rest).map (· + 2) else none
  | c :: rest =>
    if c == quote then some 1
    else if c == '\\' then none
    else (scanStringRest quote rest).map (· + 1)

def scanString : Scanner
  | '"' :: rest => (scanStringRest '"' rest).map (· + 1)
  | '\'' :: rest => (scanStringRest '\'' rest).map (· + 1)
  | _ => none

/-- How much stands before the first occurrence of a text, if it occurs. -/
def lengthBefore (text : List Char) : Scanner
  | [] => if text.isEmpty then some 0 else none
  | c :: rest =>
    if text.isPrefixOf (c :: rest) then some 0 else (lengthBefore text rest).map (· + 1)

/-- A comment between dashes, which ends at the first `--` in front of closing brackets. The dashes at
its start may stand after white space. -/
def scanDashedComment : Scanner
  | '\x7b' :: '\x7b' :: '!' :: rest =>
    let gap := (rest.takeWhile Text.isSpace).length
    match rest.drop gap with
    | '-' :: '-' :: body =>
      (lengthBefore ['-', '-', '\x7d', '\x7d'] body).map (gap + · + 9)
    | _ => none
  | _ => none

def scanPlainComment : Scanner
  | '\x7b' :: '\x7b' :: '!' :: rest => (lengthBefore ['\x7d', '\x7d'] rest).map (· + 5)
  | _ => none

def scanComment : Scanner := fun cs =>
  match scanDashedComment cs with
  | some n => some n
  | none => scanPlainComment cs

/-! ## Text -/

def tagMark : List Char := ['\x7b', '\x7b']

def rawMark : List Char := ['\x7b', '\x7b', '\x7b', '\x7b']

/-- How many characters a backslash in front of them makes plain: the brackets of a tag, or further
backslashes that stand before brackets. None if the backslash is plain itself. -/
def escapedLength (after : List Char) : Option Nat :=
  if rawMark.isPrefixOf after then some 4
  else if tagMark.isPrefixOf after then some 2
  else
    match (after.takeWhile (· == '\\')).length with
    | 0 => none
    | n => if tagMark.isPrefixOf (after.drop n) then some n else none

/-- The text up to brackets, without the backslashes of its escapes, and its length with them.
`plain` is the number of characters still to be taken as they are. -/
def scanProse (mark : List Char) : (plain : Nat) → List Char → List Char × Nat
  | _, [] => ([], 0)
  | plain + 1, c :: rest =>
    let (content, n) := scanProse mark plain rest
    (c :: content, n + 1)
  | 0, c :: rest =>
    match if c = '\\' then escapedLength rest else none with
    | some plain =>
      let (content, n) := scanProse mark plain rest
      (content, n + 1)
    | none =>
      if mark.isPrefixOf (c :: rest) then ([], 0)
      else
        let (content, n) := scanProse mark 0 rest
        (c :: content, n + 1)

end Stencil.Template
