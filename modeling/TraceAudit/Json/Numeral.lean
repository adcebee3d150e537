import TraceAudit.Json.Basic
import TraceAudit.Text.Decimal

/-!
# JSON numerals

A `Numeral` is a number as it is written. `Numeral.value?` reads it:

* without point and exponent it is an integer when it fits 64 bits, except for minus zero;
* otherwise it is a double: the leading digits, as many as fit an unsigned 64-bit word, are scaled
  once by the power of ten that remains, with one rounding for the word, one for the power of ten
  and one for the product or quotient;
* a numeral beyond the greatest double has no value.
-/

namespace TraceAudit

/-- A number as written: sign, digits before and after the point, and the power of ten. The
fraction is empty when there is no point. -/
structure Numeral where
  negative : Bool
  whole : List Char
  fraction : List Char
  power : Option (Bool × List Char)
deriving DecidableEq, Repr, Inhabited

namespace Numeral

/-- Append digits to `word` while the result fits an unsigned 64-bit word; the digits from the
first one that does not fit are left over. -/
def absorb (word : Nat) : List Char → Nat × List Char
  | [] => (word, [])
  | c :: rest =>
    let next := 10 * word + Decimal.digitValue c
    if next ≤ Decimal.maxU64 then absorb next rest else (word, c :: rest)

/-- The double nearest to `10 ^ k`, for `k` up to 308. -/
def tenTo (k : Nat) : Double := Double.ofNat (Nat.pow 10 k)

/-- `x / 10 ^ k`; a power beyond 308 is divided out in steps of `10 ^ 308`. -/
def scaleDown (x : Double) (k : Nat) : Double :=
  if k ≤ 308 then (x.div? (tenTo k)).getD Double.zero
  else if x.isZero then x
  else scaleDown ((x.div? (tenTo 308)).getD Double.zero) (k - 308)
termination_by k

/-- `x · 10 ^ k`; nothing past the greatest double. -/
def scaleUp? (x : Double) (k : Nat) : Option Double :=
  if k ≤ 308 then x.mul? (tenTo k) else if x.isZero then some x else none

/-- The written power of ten. -/
def exponent (n : Numeral) : Int :=
  match n.power with
  | none => 0
  | some (true, digits) => -(Decimal.valueOf digits : Int)
  | some (false, digits) => Decimal.valueOf digits

def double? (n : Numeral) : Option Double :=
  let (word, restWhole) := absorb 0 n.whole
  let (word, restFraction) := absorb word n.fraction
  let used := n.fraction.length - restFraction.length
  let e : Int := n.exponent + restWhole.length - used
  let x := Double.ofNat word
  let magnitude := if 0 ≤ e then scaleUp? x e.toNat else some (scaleDown x (-e).toNat)
  magnitude.map (Double.withSign n.negative)

def isPlain (n : Numeral) : Bool := n.fraction.isEmpty && n.power.isNone

/-- The value of a numeral; nothing when it overflows a double. -/
def value? (n : Numeral) : Option Number :=
  let magnitude := Decimal.valueOf n.whole
  if n.isPlain ∧ ¬n.negative ∧ magnitude ≤ Decimal.maxU64 then some (.int magnitude)
  else if n.isPlain ∧ n.negative ∧ 0 < magnitude ∧ magnitude ≤ Word.half64 then
    some (.int (-(magnitude : Int)))
  else n.double?.map .double

end Numeral
end TraceAudit
