import Stencil.Json.Reader

/-!
# Quoted text of configuration files

Basic text is in double quotes and has escapes, literal text is in single quotes and has none; both may
go over lines between three quotes. A reader takes the rest of the file and gives back what it leaves.
-/

namespace Stencil.Toml

abbrev Reader (α : Type) := List Char → Option (α × List Char)

def isBlank (c : Char) : Bool := c == ' ' || c == '\t'

/-- A character that may stand in quotes or in a comment; control characters may not. -/
def isPlain (c : Char) : Bool := c == '\t' || (0x20 ≤ c.toNat && c.toNat != 0x7F)

def charOf? (digits : List Char) : Option Char := do
  let values ← digits.mapM Json.hexValue
  let n := values.foldl (fun n d => 16 * n + d) 0
  if n < 0xD800 || (0xE000 ≤ n && n < 0x110000) then some (Char.ofNat n) else none

def escape : Reader Char
  | '"' :: rest => some ('"', rest)
  | '\\' :: rest => some ('\\', rest)
  | 'b' :: rest => some ('\x08', rest)
  | 't' :: rest => some ('\t', rest)
  | 'n' :: rest => some ('\n', rest)
  | 'f' :: rest => some ('\x0c', rest)
  | 'r' :: rest => some ('\r', rest)
  | 'e' :: rest => some ('\x1b', rest)
  | 'x' :: a :: b :: rest => (charOf? [a, b]).map (·, rest)
  | 'u' :: a :: b :: c :: d :: rest => (charOf? [a, b, c, d]).map (·, rest)
  | 'U' :: a :: b :: c :: d :: e :: f :: g :: h :: rest =>
    (charOf? [a, b, c, d, e, f, g, h]).map (·, rest)
  | _ => none

/-- Basic text on one line, after its opening quote. Each step takes something, so `fuel` need not
exceed the length of the file. -/
def basicBody : (fuel : Nat) → Reader (List Char)
  | 0, _ => none
  | _ + 1, [] => none
  | _ + 1, '"' :: rest => some ([], rest)
  | fuel + 1, '\\' :: rest => do
    let (c, rest) ← escape rest
    let (cs, rest) ← basicBody fuel rest
    return (c :: cs, rest)
  | fuel + 1, c :: rest =>
    if isPlain c then (basicBody fuel rest).map fun (cs, rest) => (c :: cs, rest) else none

/-- Literal text on one line, after its opening quote. -/
def literalBody : Reader (List Char)
  | [] => none
  | '\'' :: rest => some ([], rest)
  | c :: rest =>
    if isPlain c then (literalBody rest).map fun (cs, rest) => (c :: cs, rest) else none

def lineBreak : Reader (List Char)
  | '\n' :: rest => some (['\n'], rest)
  | '\r' :: '\n' :: rest => some (['\r', '\n'], rest)
  | _ => none

def dropBlankLines : List Char → List Char
  | '\r' :: '\n' :: rest => dropBlankLines rest
  | c :: rest => if isBlank c || c == '\n' then dropBlankLines rest else c :: rest
  | [] => []

/-- The closing three quotes with up to two more in front of them, which are content. -/
def closingQuotes (quote : Char) : Reader (List Char)
  | a :: b :: c :: rest =>
    if a == quote && b == quote && c == quote then
      match rest with
      | d :: e :: rest' =>
        if d == quote && e == quote then some ([quote, quote], rest')
        else if d == quote then some ([quote], e :: rest')
        else some ([], rest)
      | [d] => if d == quote then some ([quote], []) else some ([], [d])
      | [] => some ([], [])
    else none
  | _ => none

/-- Text over lines, after its opening quotes. In basic text a backslash may be an escape, or stand in
front of a line break that is left out with all blanks and breaks after it. -/
def linesBody (quote : Char) (basic : Bool) : (fuel : Nat) → Reader (List Char)
  | 0, _ => none
  | fuel + 1, cs =>
    match closingQuotes quote cs with
    | some (tail, rest) => some (tail, rest)
    | none =>
      match lineBreak cs with
      | some (br, rest) =>
        (linesBody quote basic fuel rest).map fun (cs, rest) => (br ++ cs, rest)
      | none =>
        match cs with
        | [] => none
        | c :: rest =>
          if basic && c == '\\' then
            match lineBreak (rest.dropWhile isBlank) with
            | some (_, rest) => linesBody quote basic fuel (dropBlankLines rest)
            | none => do
              let (e, rest) ← escape rest
              let (cs, rest) ← linesBody quote basic fuel rest
              return (e :: cs, rest)
          else if isPlain c then
            (linesBody quote basic fuel rest).map fun (cs, rest) => (c :: cs, rest)
          else none

/-- Text over lines from its opening quotes on; a line break right after them does not count. -/
def linesText (quote : Char) (basic : Bool) : Reader (List Char) := fun cs =>
  let body := match lineBreak cs with
    | some (_, rest) => rest
    | none => cs
  linesBody quote basic (body.length + 1) body

def lineText : Reader (List Char)
  | '"' :: rest => basicBody (rest.length + 1) rest
  | '\'' :: rest => literalBody rest
  | _ => none

def quotedText : Reader (List Char)
  | '"' :: '"' :: '"' :: rest => linesText '"' true rest
  | '\'' :: '\'' :: '\'' :: rest => linesText '\'' false rest
  | cs => lineText cs

end Stencil.Toml
