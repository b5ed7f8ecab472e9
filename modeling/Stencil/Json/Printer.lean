import Stencil.Json.Value
import Stencil.Number.Decimal
import Stencil.Text.Quoted

/-!
# Texts of values

A value is written on one line without blanks, members in the order of the object (`Json.compact`).
A text in it becomes a literal of the data format, which is also a literal of the scripting language of
the emitted modules: quotes, backslashes and control characters are escaped, everything else stands as
it is. Messages show a value with the name of its kind instead (`Json.shown`): `String("a")`,
`Number(5)`, `Array [Bool(true)]`.
-/

namespace Stencil

/-- The text of a number: integers exactly, doubles by their shortest decimal. -/
def Number.toText : Number → String
  | .int n => toString n
  | .double x => x.toText

namespace Json

/-! ## Literals -/

def hexDigit (n : Nat) : Char := Nat.digitChar n

def literalChar (c : Char) : List Char :=
  match c with
  | '"' => ['\\', '"']
  | '\\' => ['\\', '\\']
  | '\x08' => ['\\', 'b']
  | '\t' => ['\\', 't']
  | '\n' => ['\\', 'n']
  | '\x0c' => ['\\', 'f']
  | '\r' => ['\\', 'r']
  | c =>
    if c.toNat < 0x20 then
      ['\\', 'u', '0', '0', hexDigit (c.toNat / 16), hexDigit (c.toNat % 16)]
    else [c]

def literalChars (cs : List Char) : List Char := '"' :: cs.flatMap literalChar ++ ['"']

def literal (s : String) : String := String.ofList (literalChars s.toList)

/-! ## Compact text -/

def compact : Json → String
  | .null => "null"
  | .bool b => if b then "true" else "false"
  | .number n => n.toText
  | .string s => literal s
  | .array items => "[" ++ ",".intercalate (texts items) ++ "]"
  | .object members => "\x7b" ++ ",".intercalate (memberTexts members) ++ "\x7d"
where
  texts : List Json → List String
    | [] => []
    | x :: xs => compact x :: texts xs
  memberTexts : List (String × Json) → List String
    | [] => []
    | (k, x) :: xs => (literal k ++ ":" ++ compact x) :: memberTexts xs

/-! ## Values in messages -/

def shown : Json → String
  | .null => "Null"
  | .bool b => "Bool(" ++ (if b then "true" else "false") ++ ")"
  | .number n => "Number(" ++ n.toText ++ ")"
  | .string s => "String(" ++ Text.quoted s ++ ")"
  | .array items => "Array [" ++ ", ".intercalate (texts items) ++ "]"
  | .object members => "Object \x7b" ++ ", ".intercalate (memberTexts members) ++ "\x7d"
where
  texts : List Json → List String
    | [] => []
    | x :: xs => shown x :: texts xs
  memberTexts : List (String × Json) → List String
    | [] => []
    | (k, x) :: xs => (Text.quoted k ++ ": " ++ shown x) :: memberTexts xs

end Json

end Stencil
