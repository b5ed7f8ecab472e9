import Stencil.Number.Binary64

/-!
# Doubles and decimals

A double is written with the fewest significant digits that read back as the same double, and of
those with the digits nearest to it. `Binary64.shortest` tests, for one, two, … digits, the two
decimals of that length next to the value: the first length of which one reads back wins.

The data format reads a number with a fraction, an exponent or too many digits in two steps: the
digits that are kept, which fit in 64 bits, become a double, and this is multiplied or divided by the
double nearest to the power of ten. Each step rounds, so the last digit of a long number may differ
from the nearest double. `scaled` gives none if the number is too large.
-/

namespace Stencil.Binary64

/-! ## Writing -/

structure Decimal where
  digits : Nat
  exponent : Int
deriving DecidableEq, Repr, Inhabited

/-- The exponent `p` with `10 ^ p ≤ num / den < 10 ^ (p + 1)`, for a ratio above zero. -/
def decimalExponent (num den : Nat) : Int :=
  if den ≤ num then ((Nat.toDigits 10 (num / den)).length : Int) - 1
  else
    let places := (Nat.toDigits 10 (den / num)).length
    if den ≤ num * Nat.pow 10 (places - 1) then -((places - 1 : Nat) : Int) else -(places : Int)

/-- `num / den` in units of `10 ^ exponent`, as a ratio. -/
def inDecimalUnits (num den : Nat) (exponent : Int) : Nat × Nat :=
  if 0 ≤ exponent then (num, den * Nat.pow 10 exponent.toNat)
  else (num * Nat.pow 10 (-exponent).toNat, den)

/-- Whether a decimal reads back as the double of this mantissa and exponent. -/
def readsBack (mantissa : Nat) (exponent : Int) (d : Decimal) : Bool :=
  ofDecimal false d.digits d.exponent == .finite false mantissa exponent

/-- The decimal with this many digits that reads back and is nearest to the double, if there is one. -/
def nearestWith (mantissa : Nat) (exponent : Int) (count : Nat) : Option Decimal :=
  let (num, den) := ratio mantissa exponent
  let unit := decimalExponent num den + 1 - count
  let (n, d) := inDecimalUnits num den unit
  let below : Decimal := ⟨n / d, unit⟩
  let above : Decimal := ⟨n / d + 1, unit⟩
  let remainder := n % d
  let closer := if 2 * remainder < d ∨ (2 * remainder = d ∧ n / d % 2 = 0) then below else above
  [closer, below, above].find? (readsBack mantissa exponent)

/-- Without the zeros at the end of its digits; at most `fuel` are removed. -/
def Decimal.trim : Nat → Decimal → Decimal
  | 0, d => d
  | fuel + 1, d =>
    if d.digits ≠ 0 ∧ d.digits % 10 = 0 then trim fuel ⟨d.digits / 10, d.exponent + 1⟩ else d

/-- The shortest decimal that reads back as a finite double above zero. Seventeen digits always do. -/
def shortest (mantissa : Nat) (exponent : Int) : Decimal :=
  (((List.range 17).findSome? fun n => nearestWith mantissa exponent (n + 1)).getD
    ⟨mantissa, exponent⟩).trim 20

/-! ## Layouts -/

def zeros (n : Int) : List Char := List.replicate n.toNat '0'

/-- In positional notation; a whole number has no point. -/
def Decimal.positional (d : Decimal) : List Char :=
  let ds := Nat.toDigits 10 d.digits
  let point : Int := ds.length + d.exponent
  if 0 ≤ d.exponent then ds ++ zeros d.exponent
  else if 0 < point then ds.take point.toNat ++ '.' :: ds.drop point.toNat
  else ['0', '.'] ++ zeros (-point) ++ ds

/-- In exponent notation: one digit, a point if there are more, and the signed exponent. -/
def Decimal.scientific (d : Decimal) : List Char :=
  let ds := Nat.toDigits 10 d.digits
  let e : Int := ds.length + d.exponent - 1
  let mantissa := match ds with
    | [] => []
    | [c] => [c]
    | c :: rest => c :: '.' :: rest
  mantissa ++ ['e', if e < 0 then '-' else '+'] ++ Nat.toDigits 10 e.natAbs

/-- With `.0` unless there is a point. -/
def withPoint (cs : List Char) : List Char := if cs.contains '.' then cs else cs ++ ['.', '0']

/-- The text of a double as the data formats write it: positional from `1e-5` below `1e16` and always
with a point there, else with an exponent. -/
def toText : Binary64 → String
  | .finite s m e =>
    let sign := if s then ['-'] else []
    if m = 0 then String.ofList (sign ++ ['0', '.', '0'])
    else
      let d := shortest m e
      let point : Int := (Nat.toDigits 10 d.digits).length + d.exponent
      String.ofList (sign ++
        if -5 < point ∧ point ≤ 16 then withPoint d.positional else d.scientific)
  | .infinite s => if s then "-inf" else "inf"
  | .nan => "NaN"

/-- The text of a double that is positional at every size. -/
def toPositionalText : Binary64 → String
  | .finite s m e =>
    let sign := if s then ['-'] else []
    if m = 0 then String.ofList (sign ++ ['0', '.', '0'])
    else String.ofList (sign ++ withPoint (shortest m e).positional)
  | .infinite s => if s then "-inf" else "inf"
  | .nan => "NaN"

/-! ## Reading -/

def powerOfTen (n : Nat) : Binary64 := ofNat (Nat.pow 10 n)

/-- `x` times `10 ^ exponent`. Below the range of one power it is divided by `10 ^ 308` first, at most
`fuel` times; four divisions leave nothing of any double. -/
def scaleBy : (fuel : Nat) → Binary64 → Int → Option Binary64
  | 0, _, _ => some (.finite false 0 leastExponent)
  | fuel + 1, x, exponent =>
    if exponent.natAbs ≤ 308 then
      if 0 ≤ exponent then
        match x.mul (powerOfTen exponent.toNat) with
        | .infinite _ => none
        | y => some y
      else some (x.div (powerOfTen exponent.natAbs))
    else if x.sameNumber (.finite false 0 leastExponent) then some x
    else if 0 ≤ exponent then none
    else scaleBy fuel (x.div (powerOfTen 308)) (exponent + 308)

/-- The double read from a significand, which fits in 64 bits, and a power of ten. -/
def scaled (negative : Bool) (significand : Nat) (exponent : Int) : Option Binary64 :=
  (scaleBy 5 (ofNat significand) exponent).map (withSign negative)

end Stencil.Binary64
