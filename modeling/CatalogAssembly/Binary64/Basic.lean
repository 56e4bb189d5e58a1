/-!
# Binary numbers of 64 bits

A finite number is a sign and a code. The code is the magnitude's bit pattern
read as a natural number, exponent field above the fraction of 52 bits, so that
codes are ordered as the magnitudes are and the next code is the next number.
Everything is computed on natural numbers: `codeOfRatio` rounds a fraction to
the nearest number, ties to the even code, and a code of `overflowCode` or more
is too large for the format.
-/
namespace CatalogAssembly

structure Binary64 where
  negative : Bool
  code : Nat
  deriving DecidableEq, Repr

namespace Binary64

/-- The first code that is no finite number. -/
def overflowCode : Nat := 2047 * Nat.pow 2 52

/-- `significand code * 2 ^ exponent code` is the magnitude. -/
def significand (code : Nat) : Nat :=
  if code < Nat.pow 2 52 then code else Nat.pow 2 52 + code % Nat.pow 2 52

def exponent (code : Nat) : Int :=
  if code < Nat.pow 2 52 then -1074 else (code / Nat.pow 2 52 : Nat) - 1075

def divideToEven (num den : Nat) : Nat :=
  let whole := num / den
  let rest := 2 * (num % den)
  if rest < den then whole
  else if den < rest then whole + 1
  else whole + whole % 2

/-- `num / den` as a fraction whose numerator is divided by `2 ^ e`. -/
def scaled (num den : Nat) (e : Int) : Nat × Nat :=
  if 0 ≤ e then (num, den * Nat.pow 2 e.toNat) else (num * Nat.pow 2 (-e).toNat, den)

/-- The greatest `k` with `2 ^ k ≤ num / den`, both being positive. -/
def ratioLog (num den : Nat) : Int :=
  let k : Int := (num.log2 : Int) - den.log2
  let (n, d) := scaled num den k
  if n < d then k - 1 else k

/-- The code nearest to `num / den`, the even one of two. -/
def codeOfRatio (num den : Nat) : Nat :=
  if num = 0 then 0
  else
    let e := max (ratioLog num den - 52) (-1074)
    let (n, d) := scaled num den e
    (e + 1074).toNat * Nat.pow 2 52 + divideToEven n d

def codeOfNat (n : Nat) : Nat := codeOfRatio n 1

def ofInt (n : Int) : Binary64 := ⟨decide (n < 0), codeOfNat n.natAbs⟩

def zero (negative : Bool) : Binary64 := ⟨negative, 0⟩

/-- Equality of the numbers: the two zeros are one number. -/
def equal (x y : Binary64) : Bool :=
  x.code == y.code && (x.code == 0 || x.negative == y.negative)

/-- The product of two magnitudes, rounded once. -/
def mulCode (a b : Nat) : Nat :=
  let (n, d) := scaled (significand a * significand b) 1 (-(exponent a + exponent b))
  codeOfRatio n d

/-- The quotient of two magnitudes, the second of them positive, rounded once. -/
def divCode (a b : Nat) : Nat :=
  let (n, d) := scaled (significand a) (significand b) (exponent b - exponent a)
  codeOfRatio n d

/-- The code nearest to a power of ten. -/
def tenCode (k : Nat) : Nat := codeOfNat (Nat.pow 10 k)

@[simp] theorem equal_self (x : Binary64) : x.equal x = true := by
  simp [equal]

theorem equal_comm (x y : Binary64) : x.equal y = y.equal x := by
  rw [Bool.eq_iff_iff]
  simp only [equal, Bool.and_eq_true, Bool.or_eq_true, beq_iff_eq]
  constructor
  · rintro ⟨hc, hs⟩
    exact ⟨hc.symm, hs.imp (hc ▸ ·) Eq.symm⟩
  · rintro ⟨hc, hs⟩
    exact ⟨hc.symm, hs.imp (hc ▸ ·) Eq.symm⟩

theorem equal_trans {x y z : Binary64} (hxy : x.equal y = true) (hyz : y.equal z = true) :
    x.equal z = true := by
  simp only [equal, Bool.and_eq_true, Bool.or_eq_true, beq_iff_eq] at *
  obtain ⟨hc, hs⟩ := hxy
  obtain ⟨hc', hs'⟩ := hyz
  refine ⟨hc.trans hc', ?_⟩
  rcases hs with hs | hs
  · exact .inl hs
  · rcases hs' with hs' | hs'
    · exact .inl (hc.trans hs')
    · exact .inr (hs.trans hs')

end Binary64

end CatalogAssembly
