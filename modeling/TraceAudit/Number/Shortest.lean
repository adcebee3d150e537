import TraceAudit.Number.Double

/-!
# Shortest decimal text of a double

Among the decimals that read back as a given double, the shortest is written, and of those the
nearest. This file defines:

* `Double.interval`, the numbers that round to a double;
* `Double.shortest`, its digits and the place of its decimal point;
* `Double.render`, the written form: positional while the point lies within sixteen digits and at
  most four zeros stand in front, scientific with a signed exponent beyond that.
-/

namespace TraceAudit.Double

/-- The rounding interval of a double in quarter units of its last place: lower end, upper end,
and whether the ends belong to it. Below a power of two the numbers lie twice as dense. -/
def interval (x : Double) : Nat × Nat × Bool :=
  let m := x.mantissa
  let low := if m = leastNormal ∧ minExponent < x.exponent then 4 * m - 1 else 4 * m - 2
  (low, 4 * m + 2, m % 2 == 0)

/-- `n / d` lies in the rounding interval of `x`. -/
def covers (x : Double) (n d : Nat) : Bool :=
  let (low, high, closed) := x.interval
  let (n, d) := unitsOf n d (x.exponent - 2)
  if closed then low * d ≤ n && n ≤ high * d else low * d < n && n < high * d

/-- `c · 10 ^ p` as a fraction. -/
def scaledTen (c : Nat) (p : Int) : Nat × Nat :=
  (c * Nat.pow 10 p.toNat, Nat.pow 10 (-p).toNat)

/-- The number of digits in front of the decimal point of `num / den`, negative when zeros follow
the point: the least `k` with `num / den < 10 ^ k`, found by correcting an estimate. -/
def pointPlace (num den : Nat) : Int :=
  let digits (n : Nat) : Int := (toString n).length
  let k := digits num - digits den
  let (n, d) := scaledTen 1 k
  if num * d < n * den then k else k + 1

/-- The neighbour of `num / den` on the grid `10 ^ p` that reads back as `x`: of two the nearer,
and on a tie the even one. -/
def gridNeighbour? (x : Double) (num den : Nat) (p : Int) : Option Nat :=
  let (sn, sd) := scaledTen 1 p
  let n := num * sd
  let d := den * sn
  let c := n / d
  let r := n % d
  let hit (c : Nat) : Bool :=
    let (cn, cd) := scaledTen c p
    0 < c && x.covers cn cd
  let upFirst := d < 2 * r || (d == 2 * r && c % 2 == 1)
  if upFirst then
    if hit (c + 1) then some (c + 1) else if hit c then some c else none
  else
    if hit c then some c else if hit (c + 1) then some (c + 1) else none

/-- Search the grids of `digits`, `digits + 1`, … digits, `fuel` of them. -/
def searchGrids (x : Double) (num den : Nat) (k : Int) : Nat → Nat → Nat × Int
  | 0, digits => (num / den, k - digits)
  | fuel + 1, digits =>
    let p := k - digits
    match x.gridNeighbour? num den p with
    | some c => (c, p)
    | none => searchGrids x num den k fuel (digits + 1)

/-- The shortest digits of a positive double, without trailing zeros, and the number of them that
stand in front of the decimal point. -/
def shortest (x : Double) : List Char × Int :=
  let (num, den) := x.ratio
  let k := pointPlace num den
  let (c, p) := searchGrids x num den k 17 1
  let digits := (toString c).toList
  ((digits.reverse.dropWhile (· == '0')).reverse, p + digits.length)

/-- The written form of digits with the decimal point at `k`. -/
def layout (digits : List Char) (k : Int) : List Char :=
  let count : Int := digits.length
  if count ≤ k ∧ k ≤ 16 then
    digits ++ List.replicate (k - count).toNat '0' ++ ['.', '0']
  else if 0 < k ∧ k ≤ 16 then
    digits.take k.toNat ++ '.' :: digits.drop k.toNat
  else if -5 < k ∧ k ≤ 0 then
    ['0', '.'] ++ List.replicate (-k).toNat '0' ++ digits
  else
    let mark := if k - 1 < 0 then ['e', '-'] else ['e', '+']
    let power := (toString (k - 1).natAbs).toList
    match digits with
    | [] => []
    | [d] => d :: mark ++ power
    | d :: rest => d :: '.' :: rest ++ mark ++ power

def render (x : Double) : String :=
  let sign := if x.negative then ['-'] else []
  let body := if x.isZero then ['0', '.', '0'] else
    let (digits, k) := x.shortest
    layout digits k
  String.ofList (sign ++ body)

end TraceAudit.Double
