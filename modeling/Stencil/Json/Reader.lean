import Stencil.Json.Value
import Stencil.Number.Decimal
import Stencil.Text.Lines

/-!
# Reading values

`Json.read?` reads a whole text as one value. Numbers without fraction and exponent that fit in 64
bits are integers, all others doubles; `-0` is a double. Of two members with one name the later
counts. Arrays and objects may be nested 127 deep. The part readers take the rest of the text and
give back what they leave.
-/

namespace Stencil.Json

abbrev Reader (α : Type) := List Char → Option (α × List Char)

def skipSpace (cs : List Char) : List Char := cs.dropWhile Text.isSpace

/-! ## Numbers -/

def decimal (digits : List Char) : Nat :=
  digits.foldl (fun n c => 10 * n + (c.toNat - '0'.toNat)) 0

/-- The significand after digits have been written behind it for as long as it fits in 64 bits, and
the digits left over. -/
def appendFitting (significand : Nat) : List Char → Nat × List Char
  | [] => (significand, [])
  | c :: rest =>
    let next := 10 * significand + (c.toNat - '0'.toNat)
    if next < Word.count 64 then appendFitting next rest else (significand, c :: rest)

/-- The exponent part of a number, if there is one; none if it has no digits. -/
def readExponent : Reader (Option Int) := fun cs =>
  match cs with
  | c :: rest =>
    if c == 'e' || c == 'E' then
      let (negative, rest) := match rest with
        | '-' :: r => (true, r)
        | '+' :: r => (false, r)
        | r => (false, r)
      let digits := rest.takeWhile Char.isDigit
      if digits.isEmpty then none
      else
        let n : Int := decimal digits
        some (some (if negative then -n else n), rest.dropWhile Char.isDigit)
    else some (none, cs)
  | [] => some (none, [])

/-- The fraction part of a number: its digits, none at all without a point. -/
def readFraction : Reader (Option (List Char)) := fun cs =>
  match cs with
  | '.' :: rest =>
    let digits := rest.takeWhile Char.isDigit
    if digits.isEmpty then none else some (some digits, rest.dropWhile Char.isDigit)
  | cs => some (none, cs)

/-- The number with these whole digits, fraction digits and exponent; none if it is too large. A double
keeps the whole digits up to the first that does not fit, and then again the fraction digits up to the
first that does not fit. -/
def numberOf (negative : Bool) (whole : List Char) (fraction : Option (List Char))
    (exponent : Option Int) : Option Number :=
  let n := decimal whole
  if fraction.isNone && exponent.isNone && Word.holdsUnsigned 64 n &&
      (!negative || (0 < n && Word.holdsSigned 64 (-n))) then
    some (.int (if negative then -(n : Int) else n))
  else
    let fraction := fraction.getD []
    let (significand, wholeLeft) := appendFitting 0 whole
    let (significand, fractionLeft) := appendFitting significand fraction
    let point : Int := (wholeLeft.length + fractionLeft.length : Int) - fraction.length
    (Binary64.scaled negative significand (point + exponent.getD 0)).map .double

/-- A number. A zero in front is allowed only alone. -/
def readNumber : Reader Number := fun cs => do
  let (negative, cs) := match cs with
    | '-' :: rest => (true, rest)
    | cs => (false, cs)
  let whole := cs.takeWhile Char.isDigit
  let rest := cs.dropWhile Char.isDigit
  if whole.isEmpty || (whole.length > 1 && whole.head? == some '0') then none
  else
    let (fraction, rest) ← readFraction rest
    let (exponent, rest) ← readExponent rest
    return (← numberOf negative whole fraction exponent, rest)

/-! ## Strings -/

def hexValue (c : Char) : Option Nat :=
  if c.isDigit then some (c.toNat - '0'.toNat)
  else if 'a' ≤ c && c ≤ 'f' then some (c.toNat - 'a'.toNat + 10)
  else if 'A' ≤ c && c ≤ 'F' then some (c.toNat - 'A'.toNat + 10)
  else none

def hexWord (a b c d : Char) : Option Nat := do
  return ((← hexValue a) * 16 + (← hexValue b)) * 256 + (← hexValue c) * 16 + (← hexValue d)

def shortEscape : Char → Option Char
  | '"' => some '"'
  | '\\' => some '\\'
  | '/' => some '/'
  | 'b' => some '\x08'
  | 'f' => some '\x0c'
  | 'n' => some '\n'
  | 'r' => some '\r'
  | 't' => some '\t'
  | _ => none

/-- The characters up to the closing quote. Half of a surrogate pair alone is refused, and so are
control characters. -/
def readStringBody : Reader (List Char)
  | [] => none
  | '"' :: rest => some ([], rest)
  | '\\' :: 'u' :: a :: b :: c :: d :: '\\' :: 'u' :: e :: f :: g :: h :: rest =>
    match hexWord a b c d with
    | none => none
    | some high =>
      if 0xD800 ≤ high && high < 0xDC00 then
        match hexWord e f g h with
        | none => none
        | some low =>
          if 0xDC00 ≤ low && low < 0xE000 then do
            let (body, rest) ← readStringBody rest
            return (Char.ofNat (0x10000 + (high - 0xD800) * 0x400 + (low - 0xDC00)) :: body, rest)
          else none
      else if 0xDC00 ≤ high && high < 0xE000 then none
      else do
        let (body, rest) ← readStringBody ('\\' :: 'u' :: e :: f :: g :: h :: rest)
        return (Char.ofNat high :: body, rest)
  | '\\' :: 'u' :: a :: b :: c :: d :: rest =>
    match hexWord a b c d with
    | none => none
    | some n =>
      if 0xD800 ≤ n && n < 0xE000 then none
      else do
        let (body, rest) ← readStringBody rest
        return (Char.ofNat n :: body, rest)
  | '\\' :: c :: rest =>
    match shortEscape c with
    | none => none
    | some e => do
      let (body, rest) ← readStringBody rest
      return (e :: body, rest)
  | c :: rest =>
    if c.toNat < 0x20 || c == '\\' then none
    else do
      let (body, rest) ← readStringBody rest
      return (c :: body, rest)

def readString : Reader String
  | '"' :: rest => (readStringBody rest).map fun (body, rest) => (String.ofList body, rest)
  | _ => none

/-! ## Values -/

/-- Items separated by commas up to a closing character; the opening one has been read. At most `fuel`
items are read, and each is longer than nothing. -/
def readItems {α : Type} (close : Char) (item : Reader α) : (fuel : Nat) → Reader (List α)
  | 0, _ => none
  | fuel + 1, cs => do
    let (x, rest) ← item (skipSpace cs)
    match skipSpace rest with
    | c :: rest =>
      if c == close then some ([x], rest)
      else if c == ',' then do
        let (xs, rest) ← readItems close item fuel rest
        return (x :: xs, rest)
      else none
    | [] => none

/-- Items as above, or nothing before the closing character. -/
def readList {α : Type} (close : Char) (item : Reader α) : Reader (List α) := fun cs =>
  match skipSpace cs with
  | c :: rest => if c == close then some ([], rest) else readItems close item (cs.length + 1) cs
  | [] => none

/-- A member of an object, given a reader of its value. -/
def readMember (value : Reader Json) : Reader (String × Json) := fun cs => do
  let (name, rest) ← readString cs
  match skipSpace rest with
  | ':' :: rest => do
    let (x, rest) ← value (skipSpace rest)
    return ((name, x), rest)
  | _ => none

/-- A value whose arrays and objects are nested at most `depth` deep. -/
def readValue : (depth : Nat) → Reader Json
  | _, 'n' :: 'u' :: 'l' :: 'l' :: rest => some (.null, rest)
  | _, 't' :: 'r' :: 'u' :: 'e' :: rest => some (.bool true, rest)
  | _, 'f' :: 'a' :: 'l' :: 's' :: 'e' :: rest => some (.bool false, rest)
  | _, '"' :: rest => (readString ('"' :: rest)).map fun (s, rest) => (.string s, rest)
  | depth + 1, '[' :: rest =>
    (readList ']' (readValue depth) rest).map fun (items, rest) => (.array items, rest)
  | depth + 1, '\x7b' :: rest =>
    (readList '\x7d' (readMember (readValue depth)) rest).map fun (ms, rest) => (ofMembers ms, rest)
  | _, cs => (readNumber cs).map fun (n, rest) => (.number n, rest)

def maxDepth : Nat := 127

/-- The value that a text writes, if it is one. -/
def read? (cs : List Char) : Option Json := do
  let (value, rest) ← readValue maxDepth (skipSpace cs)
  if (skipSpace rest).isEmpty then some value else none

end Stencil.Json
