/-!
# Binary floating point, by value

A `Double` is a finite IEEE 754 binary64 number, kept as a sign, a mantissa and a power of two. This
file defines:

* `Double.ofRatio?`, the nearest double of a fraction (ties to the even mantissa), or `none` where
  the nearest one is an infinity;
* `Double.ofNat`, `Double.ofInt`, the nearest double of an integer;
* `Double.mul?`, `Double.div?`, correctly rounded arithmetic on magnitudes;
* `Double.cmpInt`, the exact comparison of a double with an integer;
* `Double.isIntegral`, whether a double has no fraction.
-/

namespace TraceAudit

/-- A finite double: `± mantissa · 2 ^ exponent`. In canonical form the mantissa has 53 bits, or
fewer with the least exponent `-1074`. -/
structure Double where
  negative : Bool
  mantissa : Nat
  exponent : Int
deriving DecidableEq, Repr, Inhabited

namespace Double

def minExponent : Int := -1074

def maxExponent : Int := 971

/-- The least mantissa with 53 bits, `2 ^ 52`. -/
def leastNormal : Nat := 4503599627370496

/-- Positive zero. -/
def zero : Double := ⟨false, 0, minExponent⟩

/-- The number is zero, of either sign. -/
def isZero (x : Double) : Bool := x.mantissa == 0

def withSign (negative : Bool) (x : Double) : Double := { x with negative }

/-- The quotient rounded to the nearest integer, a tie to the even one. -/
def roundDiv (num den : Nat) : Nat :=
  let q := num / den
  let r := num % den
  if 2 * r < den then q
  else if den < 2 * r then q + 1
  else if q % 2 = 0 then q else q + 1

/-- `num / den` as a fraction of `2 ^ e`. -/
def unitsOf (num den : Nat) (e : Int) : Nat × Nat :=
  (num * Nat.pow 2 (-e).toNat, den * Nat.pow 2 e.toNat)

/-- The greatest `k` with `2 ^ k ≤ num / den`, for positive `num` and `den`. -/
def floorLog2 (num den : Nat) : Int :=
  let k := (Nat.log2 num : Int) - Nat.log2 den
  let (n, d) := unitsOf num den k
  if d ≤ n then k else k - 1

/-- The double nearest to `num / den`, a tie to the even mantissa; `none` past the greatest
double. -/
def ofRatio? (num den : Nat) : Option Double :=
  if num = 0 ∨ den = 0 then some zero
  else
    let e := max minExponent (floorLog2 num den - 52)
    let (n, d) := unitsOf num den e
    let m := roundDiv n d
    let (m, e) := if m = 2 * leastNormal then (leastNormal, e + 1) else (m, e)
    if e ≤ maxExponent then some ⟨false, m, e⟩ else none

def ratio (x : Double) : Nat × Nat :=
  (x.mantissa * Nat.pow 2 x.exponent.toNat, Nat.pow 2 (-x.exponent).toNat)

/-- The rounded product of two magnitudes; `none` on overflow. -/
def mul? (x y : Double) : Option Double :=
  let (a, b) := x.ratio
  let (c, d) := y.ratio
  ofRatio? (a * c) (b * d)

/-- The rounded quotient of two magnitudes; `none` on overflow. -/
def div? (x y : Double) : Option Double :=
  let (a, b) := x.ratio
  let (c, d) := y.ratio
  ofRatio? (a * d) (b * c)

/-- The double nearest to a natural number, which stays below the greatest double. -/
def ofNat (n : Nat) : Double := (ofRatio? n 1).getD zero

/-- The double nearest to an integer, which stays below the greatest double. -/
def ofInt (i : Int) : Double := (ofNat i.natAbs).withSign (i < 0)

def isIntegral (x : Double) : Bool :=
  let (num, den) := x.ratio
  num % den == 0

/-- The exact order of a double against an integer. -/
def cmpInt (x : Double) (i : Int) : Ordering :=
  let (num, den) := x.ratio
  let signed : Int := if x.negative then -(num : Int) else num
  compare signed (i * den)

end Double
end TraceAudit
