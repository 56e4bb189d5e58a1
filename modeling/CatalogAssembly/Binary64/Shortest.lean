import CatalogAssembly.Binary64.Basic

/-!
# The fewest digits that read back

A magnitude is read back from every decimal in its rounding interval: the points
closer to it than to its neighbours, the half-way points included when its code
is even. `shortest` looks for a point of the interval on the decimal grids from
the coarse to the fine; the first grid that has one gives the digits, and of two
points on it the nearer is taken, or the even one.
-/
namespace CatalogAssembly.Binary64

/-- A decimal `digits * 10 ^ exponent`. -/
structure Decimal where
  digits : Nat
  exponent : Int
  deriving DecidableEq, Repr

/-- Numerators over one denominator of a magnitude and of the ends of its interval. -/
structure Interval where
  low : Nat
  value : Nat
  high : Nat
  den : Nat
  closed : Bool

/-- Below a power of two the neighbours are twice as close as above it. -/
def interval (code : Nat) : Interval :=
  let m := significand code
  let below := if m = Nat.pow 2 52 ∧ Nat.pow 2 53 ≤ code then 1 else 2
  let (unit, den) := scaled 1 4 (-exponent code)
  ⟨(4 * m - below) * unit, 4 * m * unit, (4 * m + 2) * unit, den, m % 2 = 0⟩

def Interval.holds (i : Interval) (num den : Nat) : Bool :=
  let x := num * i.den
  if i.closed then i.low * den ≤ x && x ≤ i.high * den
  else i.low * den < x && x < i.high * den

/-- `10 ^ e` as a fraction. -/
def tenPower (e : Int) : Nat × Nat :=
  if 0 ≤ e then (Nat.pow 10 e.toNat, 1) else (1, Nat.pow 10 (-e).toNat)

/-- The point on the grid of step `10 ^ e` that is in the interval and nearest to its value. -/
def Interval.gridPoint? (i : Interval) (e : Int) : Option Nat :=
  let (p, q) := tenPower e
  let step := p * i.den
  let k := i.value * q / step
  let lower := i.holds (k * p) q
  let upper := i.holds ((k + 1) * p) q
  if lower && upper then some (divideToEven (i.value * q) step)
  else if lower then some k
  else if upper then some (k + 1)
  else none

/-- The first point found on `fuel` grids, each ten times finer than the one before. -/
def Interval.search (i : Interval) : Nat → Int → Option Decimal
  | 0, _ => none
  | fuel + 1, e =>
    match i.gridPoint? e with
    | some k => some ⟨k, e⟩
    | none => i.search fuel (e - 1)

/-- A decimal exponent that no digit of the magnitude exceeds. -/
def topExponent (code : Nat) : Int :=
  let (n, d) := scaled (significand code * Nat.pow 10 330) 1 (-exponent code)
  ((Nat.toDigits 10 (n / d)).length : Int) - 330

/-- Seventeen digits always suffice, so that the search among twenty grids ends with a point. -/
def shortest (code : Nat) : Decimal :=
  if code = 0 then ⟨0, 0⟩
  else ((interval code).search 20 (topExponent code)).getD ⟨0, 0⟩

end CatalogAssembly.Binary64
