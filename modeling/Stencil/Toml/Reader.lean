import Stencil.Toml.Quoted
import Stencil.Toml.Scalar
import Stencil.Toml.Table

/-!
# Reading configuration files

`Toml.read?` reads a whole file as a table. Inline tables may go over lines and end with a comma.
Arrays and inline tables may be nested 80 deep, and a key has at most 80 parts.
-/

namespace Stencil.Toml

def skipBlanks (cs : List Char) : List Char := cs.dropWhile isBlank

/-- Without blanks, line breaks and comments at the front. `comment` says whether the text starts
inside a comment. -/
def skipLines : (comment : Bool) → List Char → Option (List Char)
  | _, [] => some []
  | false, '\r' :: '\n' :: rest => skipLines false rest
  | false, c :: rest =>
    if isBlank c || c == '\n' then skipLines false rest
    else if c == '#' then skipLines true rest
    else some (c :: rest)
  | true, '\r' :: '\n' :: rest => skipLines false rest
  | true, c :: rest =>
    if c == '\n' then skipLines false rest
    else if isPlain c then skipLines true rest
    else none

/-- What follows the end of a line: blanks and a comment may stand before it. -/
def endLine (cs : List Char) : Option (List Char) :=
  let rest := skipBlanks cs
  let rest := match rest with
    | '#' :: body => body.dropWhile isPlain
    | _ => rest
  match rest with
  | [] => some []
  | rest => (lineBreak rest).map Prod.snd

/-! ## Keys -/

def isBare (c : Char) : Bool :=
  ('a' ≤ c && c ≤ 'z') || ('A' ≤ c && c ≤ 'Z') || ('0' ≤ c && c ≤ '9') || c == '-' || c == '_'

def simpleKey : Reader String := fun cs =>
  match cs with
  | '"' :: _ => (lineText cs).map fun (text, rest) => (String.ofList text, rest)
  | '\'' :: _ => (lineText cs).map fun (text, rest) => (String.ofList text, rest)
  | cs =>
    match cs.takeWhile isBare with
    | [] => none
    | name => some (String.ofList name, cs.dropWhile isBare)

/-- A key of at most so many parts with dots between them: the parts before the last, and the last. -/
def dottedKey : (parts : Nat) → Reader (List String × String)
  | 0, _ => none
  | parts + 1, cs => do
    let (part, rest) ← simpleKey (skipBlanks cs)
    match skipBlanks rest with
    | '.' :: rest =>
      let ((path, last), rest) ← dottedKey parts rest
      return ((part :: path, last), rest)
    | rest => return (([], part), rest)

/-- How deep arrays and inline tables may be nested, and how many parts a key may have. -/
def maxDepth : Nat := 80

def key : Reader (List String × String) := fun cs => dottedKey maxDepth cs

/-! ## Values -/

def endsScalar (c : Char) : Bool :=
  [' ', '\t', '\n', '\r', ',', '[', ']', '\x7b', '\x7d', '#', '=', '"', '\''].contains c

/-- A scalar without quotes. A date and a time may have a space between them. -/
def scalar : Reader Value := fun cs =>
  let run := cs.takeWhile fun c => !endsScalar c
  let rest := cs.dropWhile fun c => !endsScalar c
  match date? run, rest with
  | some (_, []), ' ' :: c :: more =>
    if c.isDigit then
      let time := (c :: more).takeWhile fun c => !endsScalar c
      (scalar? (run ++ ' ' :: time)).map (·, (c :: more).dropWhile fun c => !endsScalar c)
    else (scalar? run).map (·, rest)
  | _, _ => (scalar? run).map (·, rest)

def arrayItems (value : Reader Value) : (fuel : Nat) → Reader (List Value)
  | 0, _ => none
  | fuel + 1, cs => do
    match ← skipLines false cs with
    | ']' :: rest => return ([], rest)
    | cs =>
      let (x, rest) ← value cs
      match ← skipLines false rest with
      | ',' :: rest =>
        let (xs, rest) ← arrayItems value fuel rest
        return (x :: xs, rest)
      | ']' :: rest => return ([x], rest)
      | _ => none

def assignment (value : Reader Value) : Reader ((List String × String) × Value) := fun cs => do
  let (key, rest) ← key cs
  match rest with
  | '=' :: rest =>
    let (x, rest) ← value (skipBlanks rest)
    return ((key, x), rest)
  | _ => none

/-- Entries of an inline table after its opening brace, added to those before. -/
def inlineEntries (value : Reader Value) : (fuel : Nat) → Table → Reader Table
  | 0, _, _ => none
  | fuel + 1, table, cs => do
    match ← skipLines false cs with
    | '\x7d' :: rest => return (table, rest)
    | cs =>
      let (((path, key), x), rest) ← assignment value cs
      let table ← table.assign path key x
      match ← skipLines false rest with
      | ',' :: rest => inlineEntries value fuel table rest
      | '\x7d' :: rest => return (table, rest)
      | _ => none

/-- A value whose arrays and inline tables are nested at most `depth` deep. -/
def value : (depth : Nat) → Reader Value
  | _, '"' :: rest =>
    (quotedText ('"' :: rest)).map fun (text, rest) => (.text (String.ofList text), rest)
  | _, '\'' :: rest =>
    (quotedText ('\'' :: rest)).map fun (text, rest) => (.text (String.ofList text), rest)
  | depth + 1, '[' :: rest =>
    (arrayItems (value depth) (rest.length + 1) rest).map fun (items, rest) => (.array items, rest)
  | depth + 1, '\x7b' :: rest =>
    (inlineEntries (value depth) (rest.length + 1) {} rest).map fun (table, rest) =>
      (table.node.freeze, rest)
  | _, cs => scalar cs

/-! ## Files -/

/-- A header after its opening brackets: the key, and what follows the closing ones. -/
def header (closing : List Char) : Reader (List String × String) := fun cs => do
  let (key, rest) ← key cs
  if closing.isPrefixOf rest then
    return (key, ← endLine (rest.drop closing.length))
  else none

/-- The lines of a file from a table on, which `inside` leads to from the table of the file. -/
def lines : (fuel : Nat) → (inside : List String) → Table → List Char → Option Table
  | 0, _, _, _ => none
  | fuel + 1, inside, table, cs => do
    match ← skipLines false cs with
    | [] => return table
    | '[' :: '[' :: rest =>
      let ((path, key), rest) ← header [']', ']'] rest
      lines fuel (path ++ [key]) (← table.openArrayTable path key) rest
    | '[' :: rest =>
      let ((path, key), rest) ← header [']'] rest
      lines fuel (path ++ [key]) (← table.openTable path key) rest
    | cs =>
      let (((path, key), x), rest) ← assignment (value maxDepth) cs
      let table ← table.change false (Table.assign path key x) inside
      lines fuel inside table (← endLine rest)

/-- The table that a file writes, if it is well formed. A byte order mark in front does not count. -/
def read? (source : String) : Option Value :=
  let cs := match source.toList with
    | '\uFEFF' :: rest => rest
    | cs => cs
  (lines (cs.length + 1) [] {} cs).map fun table => table.node.freeze

end Stencil.Toml
