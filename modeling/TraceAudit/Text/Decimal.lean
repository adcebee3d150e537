import TraceAudit.Text.Split
import TraceAudit.Number.Word

/-!
# Decimal numerals

Texts that stand for machine integers.

* `Decimal.ofDigits?` reads a non-empty run of ASCII digits;
* `Decimal.unsigned?` reads an optional `+` and digits, bounded by a largest value;
* `Decimal.signed?` also reads a `-`, with a bound on either side;
* `Decimal.u64?`, `Decimal.i64?`, `Decimal.u8?` are the widths that occur.
-/

namespace TraceAudit.Decimal

def digitValue (c : Char) : Nat := c.toNat - '0'.toNat

/-- The value of a run of digits, most significant first. -/
def valueOf (digits : List Char) : Nat :=
  digits.foldl (fun n c => 10 * n + digitValue c) 0

/-- The value of a non-empty text of digits only. -/
def ofDigits? (text : List Char) : Option Nat :=
  if text ≠ [] ∧ text.all Text.isDigit then some (valueOf text) else none

/-- The value of an optional `+` and digits, when it is at most `max`. -/
def unsigned? (max : Nat) (text : List Char) : Option Nat := do
  let digits := match text with
    | '+' :: rest => rest
    | other => other
  let n ← ofDigits? digits
  if n ≤ max then some n else none

/-- The value of an optional sign and digits, when it lies between `-low` and `high`. -/
def signed? (low high : Nat) (text : List Char) : Option Int :=
  match text with
  | '-' :: digits => do
    let n ← ofDigits? digits
    if n ≤ low then some (-(n : Int)) else none
  | other => (unsigned? high other).map Int.ofNat

def maxU64 : Nat := Word.count64 - 1

def maxI64 : Nat := Word.half64 - 1

def u64? (text : List Char) : Option Nat := unsigned? maxU64 text

def i64? (text : List Char) : Option Int := signed? Word.half64 maxI64 text

def u8? (text : List Char) : Option Nat := unsigned? 255 text

/-- The digits of `n`, with zeros in front up to `width` digits. -/
def padded (width n : Nat) : String :=
  let digits := toString n
  String.ofList (List.replicate (width - digits.length) '0') ++ digits

end TraceAudit.Decimal
