import Stencil.Json.Reader
import Stencil.Toml.Value

/-!
# Scalars without quotes

Truth values, numbers, dates and times. Each function takes the whole text of a scalar.
-/

namespace Stencil.Toml

/-- Digits of a class with single underscores between them, without the underscores. -/
def ungrouped (p : Char → Bool) : List Char → Option (List Char)
  | [] => none
  | [c] => if p c then some [c] else none
  | c :: '_' :: rest => if p c then (ungrouped p rest).map (c :: ·) else none
  | c :: rest => if p c then (ungrouped p rest).map (c :: ·) else none

/-- The whole part of a decimal number; a zero stands in front only alone. -/
def wholeDigits (cs : List Char) : Option (List Char) :=
  match ungrouped Char.isDigit cs with
  | some ['0'] => some ['0']
  | some ('0' :: _) => none
  | digits => digits

def digitsValue (base : Nat) (digits : List Char) : Nat :=
  digits.foldl (fun n c => base * n + (Json.hexValue c).getD 0) 0

def isDigitOf (base : Nat) (c : Char) : Bool := (Json.hexValue c).any (· < base)

/-- An integer with a mark of its base in front. -/
def prefixedInteger? : List Char → Option Int
  | '0' :: 'x' :: cs => (ungrouped (isDigitOf 16) cs).map fun ds => digitsValue 16 ds
  | '0' :: 'o' :: cs => (ungrouped (isDigitOf 8) cs).map fun ds => digitsValue 8 ds
  | '0' :: 'b' :: cs => (ungrouped (isDigitOf 2) cs).map fun ds => digitsValue 2 ds
  | _ => none

def exponent? : List Char → Option Int
  | '-' :: cs => (ungrouped Char.isDigit cs).map fun ds => -(Json.decimal ds : Int)
  | '+' :: cs => (ungrouped Char.isDigit cs).map fun ds => (Json.decimal ds : Int)
  | cs => (ungrouped Char.isDigit cs).map fun ds => (Json.decimal ds : Int)

/-- The fraction digits behind a point, none without a point. -/
def fraction? : List Char → Option (List Char)
  | [] => some []
  | '.' :: cs => ungrouped Char.isDigit cs
  | _ => none

/-- The double that a float writes, if it is not too large. -/
def float? (negative : Bool) (digits : List Char) (exponent : Int) : Option Binary64 :=
  match Binary64.ofDecimal negative (Json.decimal digits) exponent with
  | .infinite _ => none
  | x => some x

/-- A decimal number after its sign: an integer without point and exponent, else a float. -/
def decimal? (negative : Bool) (cs : List Char) : Option Value := do
  let isMark (c : Char) : Bool := c == 'e' || c == 'E'
  let mantissa := cs.takeWhile fun c => !isMark c
  let whole ← wholeDigits (mantissa.takeWhile (· != '.'))
  let point := mantissa.dropWhile (· != '.')
  match cs.dropWhile fun c => !isMark c with
  | [] =>
    if point.isEmpty then
      return .integer (if negative then -(Json.decimal whole : Int) else Json.decimal whole)
    else
      let fraction ← fraction? point
      return .float (float? negative (whole ++ fraction) (-(fraction.length : Int)))
  | _ :: exponent =>
    let fraction ← fraction? point
    let exponent ← exponent? exponent
    return .float (float? negative (whole ++ fraction) (exponent - fraction.length))

def signed? (negative : Bool) : List Char → Option Value
  | ['i', 'n', 'f'] => some (.float (some (.infinite negative)))
  | ['n', 'a', 'n'] => some (.float (some .nan))
  | cs => decimal? negative cs

def number? : List Char → Option Value
  | '+' :: cs => signed? false cs
  | '-' :: cs => signed? true cs
  | cs =>
    match prefixedInteger? cs with
    | some n => some (.integer n)
    | none => signed? false cs

/-! ## Dates and times -/

def pair? (a b : Char) : Option Nat :=
  if a.isDigit && b.isDigit then some (Json.decimal [a, b]) else none

def isLeapYear (year : Nat) : Bool := year % 4 == 0 && (year % 100 != 0 || year % 400 == 0)

def daysInMonth (year month : Nat) : Nat :=
  if month = 2 then (if isLeapYear year then 29 else 28)
  else if [4, 6, 9, 11].contains month then 30
  else 31

def date? : List Char → Option (List Char × List Char)
  | a :: b :: c :: d :: '-' :: e :: f :: '-' :: g :: h :: rest => do
    let century ← pair? a b
    let decade ← pair? c d
    let month ← pair? e f
    let day ← pair? g h
    let year := 100 * century + decade
    if 1 ≤ month && month ≤ 12 && 1 ≤ day && day ≤ daysInMonth year month then
      some ([a, b, c, d, '-', e, f, '-', g, h], rest)
    else none
  | _ => none

def trimZeros (digits : List Char) : List Char := (digits.reverse.dropWhile (· == '0')).reverse

/-- The part of a second at the front; nine places count. -/
def secondPart? : List Char → Option (List Char × List Char)
  | '.' :: cs =>
    let digits := cs.takeWhile Char.isDigit
    if digits.isEmpty then none
    else
      let kept := trimZeros (digits.take 9)
      some (if kept.isEmpty then [] else '.' :: kept, cs.dropWhile Char.isDigit)
  | cs => some ([], cs)

/-- A time of day at the front. The seconds may be left out. -/
def time? : List Char → Option (List Char × List Char)
  | a :: b :: ':' :: c :: d :: rest => do
    let hour ← pair? a b
    let minute ← pair? c d
    if 23 < hour || 59 < minute then none
    else
      match rest with
      | ':' :: e :: f :: rest =>
        let second ← pair? e f
        if 60 < second then none
        else
          let (part, rest) ← secondPart? rest
          some ([a, b, ':', c, d, ':', e, f] ++ part, rest)
      | ':' :: _ => none
      | rest => some ([a, b, ':', c, d], rest)
  | _ => none

/-- An offset from universal time, as the whole rest. -/
def offset? : List Char → Option (List Char)
  | [] => some []
  | ['Z'] => some ['Z']
  | ['z'] => some ['Z']
  | [sign, a, b, ':', c, d] => do
    let hour ← pair? a b
    let minute ← pair? c d
    if (sign == '+' || sign == '-') && hour ≤ 23 && minute ≤ 59 then
      some ((if hour = 0 ∧ minute = 0 then '+' else sign) :: [a, b, ':', c, d])
    else none
  | _ => none

/-- A date, a time, or both with an offset or without. -/
def datetime? (cs : List Char) : Option (List Char) :=
  match date? cs with
  | some (date, []) => some date
  | some (date, c :: rest) =>
    if c == 'T' || c == 't' || c == ' ' then do
      let (time, rest) ← time? rest
      return date ++ 'T' :: time ++ (← offset? rest)
    else none
  | none =>
    match time? cs with
    | some (time, []) => some time
    | _ => none

def scalar? (cs : List Char) : Option Value :=
  match cs with
  | ['t', 'r', 'u', 'e'] => some (.boolean true)
  | ['f', 'a', 'l', 's', 'e'] => some (.boolean false)
  | cs =>
    match datetime? cs with
    | some text => some (.datetime (String.ofList text))
    | none => number? cs

end Stencil.Toml
