import Stencil.Json.Printer

/-!
# Written values

How a value stands in rendered text, the escapes of markup, and the indent of the lines that a partial
writes.
-/

namespace Stencil.Render

def text : Json → List Char
  | .null => []
  | .bool b => if b then ['t', 'r', 'u', 'e'] else ['f', 'a', 'l', 's', 'e']
  | .number n => n.toText.toList
  | .string s => s.toList
  | .array items => '[' :: texts items ++ [']']
  | .object _ => ['[', 'o', 'b', 'j', 'e', 'c', 't', ']']
where
  /-- The texts of items, each with a comma after it. -/
  texts : List Json → List Char
    | [] => []
    | x :: xs => text x ++ [',', ' '] ++ texts xs

def escapeChar (c : Char) : List Char :=
  match c with
  | '<' => ['&', 'l', 't', ';']
  | '>' => ['&', 'g', 't', ';']
  | '"' => ['&', 'q', 'u', 'o', 't', ';']
  | '&' => ['&', 'a', 'm', 'p', ';']
  | '\'' => ['&', '#', 'x', '2', '7', ';']
  | '\x60' => ['&', '#', 'x', '6', '0', ';']
  | '=' => ['&', '#', 'x', '3', 'D', ';']
  | c => [c]

def escape (cs : List Char) : List Char := cs.flatMap escapeChar

/-- Text with an indent after each line break but one at its end. -/
def indented (indent : List Char) : List Char → List Char
  | [] => []
  | ['\n'] => ['\n']
  | '\n' :: rest => '\n' :: (indent ++ indented indent rest)
  | c :: rest => c :: indented indent rest

end Stencil.Render
