/-!
# Words and doubles

Which integers a word of a fixed width holds, with a sign and without; and a double as what it denotes:
a sign, an integer mantissa and a power of two. Every operation on doubles computes an exact ratio of
natural numbers first and rounds it once, to the nearest double and to the even mantissa on a tie
(`Binary64.ofRatio`), so no machine arithmetic is involved.
-/

namespace Stencil.Word

/-- How many values a word of so many bits has. -/
def count (bits : Nat) : Nat := Nat.pow 2 bits

def holdsUnsigned (bits : Nat) (n : Int) : Bool := 0 ≤ n && n < count bits

def holdsSigned (bits : Nat) (n : Int) : Bool :=
  -(count (bits - 1) : Int) ≤ n && n < count (bits - 1)

theorem holdsUnsigned_iff {bits : Nat} {n : Int} :
    holdsUnsigned bits n = true ↔ 0 ≤ n ∧ n < count bits := by
  simp [holdsUnsigned]

theorem holdsSigned_iff {bits : Nat} {n : Int} :
    holdsSigned bits n = true ↔ -(count (bits - 1) : Int) ≤ n ∧ n < count (bits - 1) := by
  simp [holdsSigned]

end Stencil.Word

namespace Stencil

/-- A double. The finite value is `mantissa * 2 ^ exponent` under its sign; a mantissa is below
`2 ^ 53`, and below `2 ^ 52` only at the least exponent, `-1074`. -/
inductive Binary64 where
  | finite (negative : Bool) (mantissa : Nat) (exponent : Int)
  | infinite (negative : Bool)
  | nan
deriving DecidableEq, Repr, Inhabited

namespace Binary64

/-- The quotient rounded to the nearest integer, a half to the even one. -/
def roundHalfEven (num den : Nat) : Nat :=
  let q := num / den
  let r := num % den
  if 2 * r < den then q
  else if den < 2 * r then q + 1
  else if q % 2 = 0 then q else q + 1

def leastExponent : Int := -1074

def greatestExponent : Int := 971

/-- The ratio `num / den` in units of `2 ^ exponent`, as a ratio again. -/
def inUnits (num den : Nat) (exponent : Int) : Nat × Nat :=
  if 0 ≤ exponent then (num, den * Nat.pow 2 exponent.toNat)
  else (num * Nat.pow 2 (-exponent).toNat, den)

/-- The exponent at which the mantissa of `num / den` has 53 bits, or the least one. -/
def exponentOf (num den : Nat) : Int :=
  let guess := max leastExponent ((num.log2 : Int) - (den.log2 : Int) - 53)
  let (n, d) := inUnits num den guess
  if n / d < Nat.pow 2 53 then guess else guess + 1

/-- The double nearest to `num / den`; too large a ratio is infinite. -/
def ofRatio (negative : Bool) (num den : Nat) : Binary64 :=
  if num = 0 ∨ den = 0 then .finite negative 0 leastExponent
  else
    let e := exponentOf num den
    let (n, d) := inUnits num den e
    let m := roundHalfEven n d
    let (m, e) := if m = Nat.pow 2 53 then (Nat.pow 2 52, e + 1) else (m, e)
    if greatestExponent < e then .infinite negative else .finite negative m e

def ofNat (n : Nat) : Binary64 := ofRatio false n 1

/-- The double nearest to `mantissa * 10 ^ exponent`. Beyond 400 places of a nonzero mantissa the
result is infinite or zero whatever its digits are. -/
def ofDecimal (negative : Bool) (mantissa : Nat) (exponent : Int) : Binary64 :=
  let digits : Int := (Nat.toDigits 10 mantissa).length
  if mantissa = 0 ∨ exponent + digits < -400 then .finite negative 0 leastExponent
  else if 400 < exponent + digits then .infinite negative
  else if 0 ≤ exponent then ofRatio negative (mantissa * Nat.pow 10 exponent.toNat) 1
  else ofRatio negative mantissa (Nat.pow 10 (-exponent).toNat)

/-- The magnitude of a finite double as a ratio. -/
def ratio (mantissa : Nat) (exponent : Int) : Nat × Nat :=
  if 0 ≤ exponent then (mantissa * Nat.pow 2 exponent.toNat, 1)
  else (mantissa, Nat.pow 2 (-exponent).toNat)

/-- The product of two magnitudes. What is not finite stays as it is. -/
def mul : Binary64 → Binary64 → Binary64
  | .finite s m e, .finite t n f =>
    let (a, b) := ratio m e
    let (c, d) := ratio n f
    ofRatio (s != t) (a * c) (b * d)
  | .finite .., y => y
  | x, _ => x

/-- The quotient of two magnitudes; the divisor is not zero. -/
def div : Binary64 → Binary64 → Binary64
  | .finite s m e, .finite t n f =>
    let (a, b) := ratio m e
    let (c, d) := ratio n f
    ofRatio (s != t) (a * d) (b * c)
  | .finite .., y => y
  | x, _ => x

def withSign (negative : Bool) : Binary64 → Binary64
  | .finite _ m e => .finite negative m e
  | .infinite _ => .infinite negative
  | .nan => .nan

/-- Equality of the numbers denoted: both zeros are one number, and NaN is none. -/
def sameNumber : Binary64 → Binary64 → Bool
  | .finite s m e, .finite t n f => (m == 0 && n == 0) || (s == t && m == n && e == f)
  | .infinite s, .infinite t => s == t
  | _, _ => false

/-- Finite, not zero and not below the least normal double. -/
def isNormal : Binary64 → Bool
  | .finite _ m _ => Nat.pow 2 52 ≤ m
  | _ => false

/-- The text of a finite double with exactly `places` decimals, a half going to the even digit. -/
def toFixed (places : Nat) : Binary64 → String
  | .finite s m e =>
    let (num, den) := ratio m e
    let scaled := roundHalfEven (num * Nat.pow 10 places) den
    let whole := scaled / Nat.pow 10 places
    let digits := Nat.toDigits 10 (scaled % Nat.pow 10 places)
    let fraction := List.replicate (places - digits.length) '0' ++ digits
    String.ofList ((if s then ['-'] else []) ++ Nat.toDigits 10 whole ++
      (if places = 0 then [] else '.' :: fraction))
  | .infinite s => if s then "-inf" else "inf"
  | .nan => "NaN"

end Binary64

end Stencil
