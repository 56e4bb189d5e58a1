import CatalogAssembly.Binary64.Basic
import Mathlib.Algebra.Group.Nat.Defs
import Mathlib.Data.Int.Order.Basic
import Mathlib.Order.Monotone.Basic

/-!
# Rounding integers to 64 bits

Magnitudes are counted in the smallest positive number, of which `one` make one,
so that all numbers and all integers are compared as integers. The magnitude
grows with the code. Between `2 ^ 52 * 2 ^ k` and `2 ^ 53 * 2 ^ k` the numbers
are the multiples of `2 ^ k`, and rounding is a division to the nearest
quotient. `Nearest` is the rule of rounding itself: the nearest of all numbers,
the even one of two. It is stated of all codes, those beyond the format
included, and one number alone obeys it, which is the one `ofInt` gives; for
integers of 64 binary digits that is a number of the format.
-/
namespace CatalogAssembly.Binary64

/-- The smallest positive number is one divided by two to this power. Kept closed, for the
power itself is too large to be computed in a proof. -/
@[irreducible]
def leastExponent : Nat := 1074

/-- The integer one, counted in the smallest positive number. -/
def one : Nat := 2 ^ leastExponent

/-- A magnitude, counted in the smallest positive number. -/
def magnitude (code : Nat) : Nat := significand code * 2 ^ (exponent code + 1074).toNat

/-- A number, counted in the smallest positive one. -/
def units (x : Binary64) : Int :=
  if x.negative then -(magnitude x.code : Int) else magnitude x.code

/-- How far a number is from an integer. -/
def distance (x : Binary64) (n : Int) : Nat := (x.units - n * one).natAbs

/-- No number is nearer to the integer, and of two as near this is the even one. -/
structure Nearest (x : Binary64) (n : Int) : Prop where
  closest (y : Binary64) : x.distance n ≤ y.distance n
  even (y : Binary64) : x.distance n = y.distance n → y.units = x.units ∨ x.code % 2 = 0

/-- Of two magnitudes the first is nearer to `a`, or as near and the even one. -/
def Preferred (a v w : Nat) (even : Prop) : Prop :=
  ((v : Int) - a).natAbs < ((w : Int) - a).natAbs ∨
    ((v : Int) - a).natAbs = ((w : Int) - a).natAbs ∧ even

section Magnitude

theorem magnitude_of_lt {c : Nat} (h : c < 2 ^ 52) : magnitude c = c := by
  have hc : c < Nat.pow 2 52 := h
  simp [magnitude, significand, exponent, hc]

/-- A significand of `2 ^ 53` has its carry in the exponent. -/
theorem magnitude_add (k : Nat) {q : Nat} (h : 2 ^ 52 ≤ q) (h' : q ≤ 2 ^ 53) :
    magnitude (k * 2 ^ 52 + q) = q * 2 ^ k := by
  have hc : ¬ k * 2 ^ 52 + q < 2 ^ 52 := by omega
  simp only [magnitude, significand, exponent, Nat.pow_eq, hc, if_false]
  rcases Nat.lt_or_ge q (2 ^ 53) with hq | hq
  · have hdiv : (k * 2 ^ 52 + q) / 2 ^ 52 = k + 1 := by omega
    have hmod : 2 ^ 52 + (k * 2 ^ 52 + q) % 2 ^ 52 = q := by omega
    have he : (((k + 1 : Nat) : Int) - 1075 + 1074).toNat = k := by omega
    rw [hdiv, hmod, he]
  · obtain rfl : q = 2 ^ 53 := Nat.le_antisymm h' hq
    have hdiv : (k * 2 ^ 52 + 2 ^ 53) / 2 ^ 52 = k + 2 := by omega
    have hmod : 2 ^ 52 + (k * 2 ^ 52 + 2 ^ 53) % 2 ^ 52 = 2 ^ 52 := by omega
    have he : (((k + 2 : Nat) : Int) - 1075 + 1074).toNat = k + 1 := by omega
    rw [hdiv, hmod, he, Nat.pow_succ']
    omega

theorem magnitude_lt_succ (c : Nat) : magnitude c < magnitude (c + 1) := by
  rcases Nat.lt_or_ge c (2 ^ 52) with hc | hc
  · rw [magnitude_of_lt hc]
    rcases Nat.lt_or_ge (c + 1) (2 ^ 52) with hs | hs
    · rw [magnitude_of_lt hs]
      exact Nat.lt_succ_self c
    · have h := magnitude_add 0 hs (by omega)
      simp only [Nat.zero_mul, Nat.zero_add, Nat.pow_zero, Nat.mul_one] at h
      rw [h]
      exact Nat.lt_succ_self c
  · obtain ⟨k, q, hq, hq', rfl⟩ : ∃ k q, 2 ^ 52 ≤ q ∧ q < 2 ^ 53 ∧ c = k * 2 ^ 52 + q :=
      ⟨c / 2 ^ 52 - 1, 2 ^ 52 + c % 2 ^ 52, by omega, by omega, by omega⟩
    rw [Nat.add_assoc, magnitude_add k hq (by omega), magnitude_add k (by omega) hq']
    exact Nat.mul_lt_mul_of_pos_right (Nat.lt_succ_self q) (Nat.two_pow_pos k)

theorem strictMono_magnitude : StrictMono magnitude :=
  strictMono_nat_of_lt_succ magnitude_lt_succ

@[simp] theorem magnitude_zero : magnitude 0 = 0 := magnitude_of_lt (by decide)

theorem magnitude_eq_zero_iff {c : Nat} : magnitude c = 0 ↔ c = 0 :=
  ⟨fun h => strictMono_magnitude.injective (h.trans magnitude_zero.symm),
    fun h => h ▸ magnitude_zero⟩

/-- A code is below the numbers with unit `2 ^ k`, above them or one of them. -/
theorem magnitude_cases (k c : Nat) :
    magnitude c < 2 ^ 52 * 2 ^ k ∨ 2 ^ 53 * 2 ^ k < magnitude c ∨
      ∃ q, c = k * 2 ^ 52 + q ∧ magnitude c = q * 2 ^ k := by
  rcases Nat.lt_or_ge c (k * 2 ^ 52 + 2 ^ 52) with hc | hc
  · rw [← magnitude_add k (Nat.le_refl _) (by decide)]
    exact .inl (strictMono_magnitude hc)
  · rcases Nat.lt_or_ge (k * 2 ^ 52 + 2 ^ 53) c with hc' | hc'
    · rw [← magnitude_add k (by decide) (Nat.le_refl (2 ^ 53))]
      exact .inr (.inl (strictMono_magnitude hc'))
    · obtain ⟨q, rfl⟩ := Nat.exists_eq_add_of_le (Nat.le_trans (Nat.le_add_right _ _) hc)
      exact .inr (.inr ⟨q, rfl, magnitude_add k (by omega) (by omega)⟩)

end Magnitude

section Division

variable {a d : Nat}

theorem divideToEven_cases (a d : Nat) :
    divideToEven a d = a / d ∧ 2 * (a % d) ≤ d ∧ (2 * (a % d) = d → divideToEven a d % 2 = 0) ∨
      divideToEven a d = a / d + 1 ∧ d ≤ 2 * (a % d) ∧
        (2 * (a % d) = d → divideToEven a d % 2 = 0) := by
  simp only [divideToEven]
  split
  · exact .inl ⟨rfl, by omega, by omega⟩
  · split
    · exact .inr ⟨rfl, by omega, by omega⟩
    · rcases Nat.mod_two_eq_zero_or_one (a / d) with h | h
      · exact .inl ⟨by omega, by omega, by omega⟩
      · exact .inr ⟨by omega, by omega, by omega⟩

/-- The quotient is half a unit away at most. -/
theorem divideToEven_error (hd : 0 < d) :
    2 * ((divideToEven a d * d : Nat) - a : Int).natAbs ≤ d := by
  have ha := Nat.div_add_mod' a d
  have hr := Nat.mod_lt a hd
  rcases divideToEven_cases a d with ⟨h, hle, -⟩ | ⟨h, hle, -⟩ <;> rw [h]
  · omega
  · rw [Nat.add_mul, Nat.one_mul]
    omega

theorem preferred_divideToEven (hd : 0 < d) {q : Nat} (hq : q ≠ divideToEven a d) :
    Preferred a (divideToEven a d * d) (q * d) (divideToEven a d % 2 = 0) := by
  have ha := Nat.div_add_mod' a d
  have hr := Nat.mod_lt a hd
  have herror := divideToEven_error (a := a) hd
  -- Half a unit is the least that another quotient is away.
  have hother : d < 2 * ((q * d : Nat) - a : Int).natAbs ∨
      d = 2 * ((q * d : Nat) - a : Int).natAbs ∧ divideToEven a d % 2 = 0 := by
    rcases divideToEven_cases a d with ⟨h, hle, heven⟩ | ⟨h, hle, heven⟩
    · rcases Nat.lt_or_gt_of_ne (h ▸ hq) with hlt | hlt
      · have hm := Nat.mul_le_mul_right d hlt
        rw [Nat.succ_mul] at hm
        omega
      · have hm := Nat.mul_le_mul_right d hlt
        rw [Nat.succ_mul] at hm
        omega
    · rcases Nat.lt_or_gt_of_ne (h ▸ hq) with hlt | hlt
      · have hm := Nat.mul_le_mul_right d (Nat.le_of_lt_succ hlt)
        omega
      · have hm := Nat.mul_le_mul_right d hlt
        rw [Nat.succ_mul, Nat.succ_mul] at hm
        omega
  unfold Preferred
  omega

theorem divideToEven_mul_right (a d : Nat) {c : Nat} (hc : 0 < c) :
    divideToEven (a * c) (d * c) = divideToEven a d := by
  simp only [divideToEven, Nat.mul_div_mul_right _ _ hc, Nat.mul_mod_mul_right, ← Nat.mul_assoc,
    Nat.mul_lt_mul_right hc]

end Division

section Code

variable {a k : Nat}

/-- The quotient by the unit is a significand. -/
theorem divideToEven_bounds (h : 2 ^ 52 * 2 ^ k ≤ a) (h' : a < 2 ^ 53 * 2 ^ k) :
    2 ^ 52 ≤ divideToEven a (2 ^ k) ∧ divideToEven a (2 ^ k) ≤ 2 ^ 53 := by
  have hlow : 2 ^ 52 ≤ a / 2 ^ k := (Nat.le_div_iff_mul_le (Nat.two_pow_pos k)).mpr h
  have hhigh : a / 2 ^ k < 2 ^ 53 := (Nat.div_lt_iff_lt_mul (Nat.two_pow_pos k)).mpr h'
  rcases divideToEven_cases a (2 ^ k) with ⟨hq, -⟩ | ⟨hq, -⟩ <;> omega

/-- No number is left out: those with another unit are farther away. -/
theorem preferred_of_bounds (h : 2 ^ 52 * 2 ^ k ≤ a) (h' : a < 2 ^ 53 * 2 ^ k) {c : Nat}
    (hc : c ≠ k * 2 ^ 52 + divideToEven a (2 ^ k)) :
    Preferred a (divideToEven a (2 ^ k) * 2 ^ k) (magnitude c)
      (divideToEven a (2 ^ k) % 2 = 0) := by
  have hother {q : Nat} (hq : q ≠ divideToEven a (2 ^ k)) :=
    preferred_divideToEven (Nat.two_pow_pos k) hq
  unfold Preferred at hother ⊢
  rcases magnitude_cases k c with hm | hm | ⟨q, rfl, hm⟩
  · by_cases hq : 2 ^ 52 = divideToEven a (2 ^ k)
    · rw [← hq]
      omega
    · have := hother hq
      omega
  · by_cases hq : 2 ^ 53 = divideToEven a (2 ^ k)
    · rw [← hq]
      omega
    · have := hother hq
      omega
  · rw [hm]
    exact hother fun hq => hc (hq ▸ rfl)

theorem leastExponent_eq : leastExponent = 1074 := by
  unfold leastExponent
  rfl

theorem two_pow_mul_one {i l : Nat} (h : l + 1074 = i) : 2 ^ l * one = 2 ^ i := by
  rw [one, ← Nat.pow_add, leastExponent_eq, h]

theorem one_eq_mul {i j : Nat} (h : i + j = 1074) : one = 2 ^ i * 2 ^ j := by
  rw [one, ← Nat.pow_add, leastExponent_eq, h]

theorem one_pos : 0 < one := Nat.two_pow_pos leastExponent

/-- A number that is not zero lies among the multiples of this unit that are numbers. -/
theorem codeOfNat_bounds {n : Nat} (hn : n ≠ 0) :
    2 ^ 52 * 2 ^ (n.log2 + 1022) ≤ n * one ∧ n * one < 2 ^ 53 * 2 ^ (n.log2 + 1022) := by
  have hlow : 2 ^ n.log2 * one = 2 ^ (52 + (n.log2 + 1022)) := two_pow_mul_one (by omega)
  have hhigh : 2 ^ (n.log2 + 1) * one = 2 ^ (53 + (n.log2 + 1022)) := two_pow_mul_one (by omega)
  rw [← Nat.pow_add, ← Nat.pow_add, ← hlow, ← hhigh]
  exact ⟨Nat.mul_le_mul_right one (Nat.log2_self_le hn),
    Nat.mul_lt_mul_of_pos_right Nat.lt_log2_self one_pos⟩

theorem ratioLog_one {n : Nat} (hn : n ≠ 0) : ratioLog n 1 = n.log2 := by
  have h1 : Nat.log2 1 = 0 := by decide
  have hlow : ¬ n < 2 ^ n.log2 := Nat.not_lt.mpr (Nat.log2_self_le hn)
  simp [ratioLog, scaled, h1, hlow]

/-- The code is that of the quotient by the unit, whether the unit is an integer or not. -/
theorem codeOfNat_eq {n : Nat} (hn : n ≠ 0) :
    codeOfNat n = (n.log2 + 1022) * 2 ^ 52 + divideToEven (n * one) (2 ^ (n.log2 + 1022)) := by
  have hmax : max ((n.log2 : Int) - 52) (-1074) = n.log2 - 52 := by omega
  have he : ((n.log2 : Int) - 52 + 1074).toNat = n.log2 + 1022 := by omega
  simp only [codeOfNat, codeOfRatio, hn, if_false, ratioLog_one hn, hmax, he, scaled, Nat.pow_eq]
  rw [Nat.add_left_cancel_iff]
  split
  next h =>
    have hunit : 2 ^ ((n.log2 : Int) - 52).toNat * one = 2 ^ (n.log2 + 1022) :=
      two_pow_mul_one (by omega)
    rw [← hunit, divideToEven_mul_right _ _ one_pos, Nat.one_mul]
  next h =>
    have hone : one = 2 ^ (-((n.log2 : Int) - 52)).toNat * 2 ^ (n.log2 + 1022) :=
      one_eq_mul (by omega)
    have hmul := divideToEven_mul_right (n * 2 ^ (-((n.log2 : Int) - 52)).toNat) 1
      (Nat.two_pow_pos (n.log2 + 1022))
    rw [Nat.mul_assoc, ← hone, Nat.one_mul] at hmul
    exact hmul.symm

theorem magnitude_codeOfNat {n : Nat} (hn : n ≠ 0) :
    magnitude (codeOfNat n)
      = divideToEven (n * one) (2 ^ (n.log2 + 1022)) * 2 ^ (n.log2 + 1022) := by
  obtain ⟨h, h'⟩ := codeOfNat_bounds hn
  obtain ⟨hq, hq'⟩ := divideToEven_bounds h h'
  rw [codeOfNat_eq hn, magnitude_add _ hq hq']

@[simp] theorem codeOfNat_zero : codeOfNat 0 = 0 := rfl

/-- The code of an integer is preferred to all others. -/
theorem preferred_codeOfNat (n : Nat) {c : Nat} (hc : c ≠ codeOfNat n) :
    Preferred (n * one) (magnitude (codeOfNat n)) (magnitude c) (codeOfNat n % 2 = 0) := by
  by_cases hn : n = 0
  · subst hn
    have hm : magnitude c ≠ 0 := fun h => hc (magnitude_eq_zero_iff.mp h)
    rw [codeOfNat_zero, magnitude_zero, Preferred]
    omega
  · obtain ⟨h, h'⟩ := codeOfNat_bounds hn
    rw [codeOfNat_eq hn] at hc
    have hother := preferred_of_bounds h h' hc
    have heven : divideToEven (n * one) (2 ^ (n.log2 + 1022)) % 2 = 0 → codeOfNat n % 2 = 0 := by
      rw [codeOfNat_eq hn]
      omega
    rw [magnitude_codeOfNat hn]
    exact hother.imp_right (And.imp_right heven)

end Code

section Number

variable {x y : Binary64} {n : Int}

theorem natAbs_units (x : Binary64) : x.units.natAbs = magnitude x.code := by
  unfold units
  split <;> omega

theorem code_eq_of_units (h : x.units = y.units) : x.code = y.code := by
  apply strictMono_magnitude.injective
  rw [← natAbs_units, ← natAbs_units, h]

/-- Plain equality is equality of the numbers. -/
theorem equal_iff_units : x.equal y = true ↔ x.units = y.units := by
  simp only [equal, Bool.and_eq_true, Bool.or_eq_true, beq_iff_eq]
  constructor
  · rintro ⟨hc, h0 | hs⟩
    · simp [units, ← hc, h0]
    · simp [units, hc, hs]
  · intro h
    have hc := code_eq_of_units h
    refine ⟨hc, Classical.or_iff_not_imp_left.mpr fun h0 => ?_⟩
    have hm : magnitude y.code ≠ 0 := fun hm => h0 (hc.trans (magnitude_eq_zero_iff.mp hm))
    cases hx : x.negative <;> cases hy : y.negative <;> simp [units, hc, hx, hy] at h ⊢ <;> omega

theorem units_ofInt (n : Int) :
    (ofInt n).units = if n < 0 then -(magnitude (codeOfNat n.natAbs) : Int)
      else magnitude (codeOfNat n.natAbs) := by
  simp [units, ofInt]

theorem mul_one_eq (n : Int) :
    n * one = if n < 0 then -((n.natAbs * one : Nat) : Int) else (n.natAbs * one : Nat) := by
  split
  next h =>
    rw [Int.natCast_mul, Int.ofNat_natAbs_of_nonpos (Int.le_of_lt h), Int.neg_mul, Int.neg_neg]
  next h => rw [Int.natCast_mul, Int.natAbs_of_nonneg (Int.not_lt.mp h)]

/-- Signs aside a number is no farther from an integer. -/
theorem le_distance (y : Binary64) (n : Int) :
    ((magnitude y.code : Int) - (n.natAbs * one : Nat)).natAbs ≤ y.distance n := by
  have hy := natAbs_units y
  rw [distance, mul_one_eq]
  split <;> omega

theorem distance_ofInt (n : Int) :
    (ofInt n).distance n
      = ((magnitude (codeOfNat n.natAbs) : Int) - (n.natAbs * one : Nat)).natAbs := by
  rw [distance, units_ofInt, mul_one_eq]
  split <;> omega

/-- The number an integer is converted to is the one the rule of rounding asks for. -/
theorem nearest_ofInt (n : Int) : (ofInt n).Nearest n := by
  constructor
  · intro y
    have hy := le_distance y n
    rw [distance_ofInt]
    by_cases hc : y.code = codeOfNat n.natAbs
    · rwa [hc] at hy
    · rcases preferred_codeOfNat n.natAbs hc with h | h <;> omega
  · intro y he
    have hy := le_distance y n
    rw [distance_ofInt] at he
    by_cases hc : y.code = codeOfNat n.natAbs
    · -- The same magnitude with the other sign is as near only if it is no other number.
      have hzero : n.natAbs * one = 0 → magnitude (codeOfNat n.natAbs) = 0 := by
        intro h
        rw [(Nat.mul_eq_zero.mp h).resolve_right one_pos.ne', codeOfNat_zero, magnitude_zero]
      have hu := natAbs_units y
      rw [hc] at hu
      rw [distance, mul_one_eq] at he
      rw [units_ofInt]
      left
      split at he <;> omega
    · rcases preferred_codeOfNat n.natAbs hc with h | ⟨-, h⟩
      · omega
      · exact .inr h

/-- Two different numbers of even code have another one between them. -/
theorem exists_between (h : x.units < y.units) (hx : x.code % 2 = 0) (hy : y.code % 2 = 0) :
    ∃ z : Binary64, x.units < z.units ∧ z.units < y.units := by
  have hxu := natAbs_units x
  have hyu := natAbs_units y
  by_cases hneg : x.units < 0
  · by_cases hpos : 0 < y.units
    · exact ⟨zero false, by simpa [units, zero] using ⟨hneg, hpos⟩⟩
    · have hlt : y.code < x.code := by
        rw [← strictMono_magnitude.lt_iff_lt]
        omega
      have h1 : magnitude y.code < magnitude (y.code + 1) := magnitude_lt_succ _
      have h2 : magnitude (y.code + 1) < magnitude x.code := strictMono_magnitude (by omega)
      have hz : units ⟨true, y.code + 1⟩ = -(magnitude (y.code + 1) : Int) := rfl
      exact ⟨⟨true, y.code + 1⟩, by omega, by omega⟩
  · have hlt : x.code < y.code := by
      rw [← strictMono_magnitude.lt_iff_lt]
      omega
    have h1 : magnitude x.code < magnitude (x.code + 1) := magnitude_lt_succ _
    have h2 : magnitude (x.code + 1) < magnitude y.code := strictMono_magnitude (by omega)
    have hz : units ⟨false, x.code + 1⟩ = (magnitude (x.code + 1) : Int) := rfl
    exact ⟨⟨false, x.code + 1⟩, by omega, by omega⟩

theorem Nearest.not_lt (hx : x.Nearest n) (hy : y.Nearest n) : ¬ x.units < y.units := by
  intro h
  have he : x.distance n = y.distance n := Nat.le_antisymm (hx.closest y) (hy.closest x)
  obtain ⟨z, hz, hz'⟩ := exists_between h ((hx.even y he).resolve_left h.ne')
    ((hy.even x he.symm).resolve_left h.ne)
  have hc := hx.closest z
  simp only [distance] at he hc
  omega

/-- One number alone obeys the rule. -/
theorem Nearest.units_eq (hx : x.Nearest n) (hy : y.Nearest n) : x.units = y.units :=
  Int.le_antisymm (Int.not_lt.mp (hy.not_lt hx)) (Int.not_lt.mp (hx.not_lt hy))

theorem Nearest.congr (hx : x.Nearest n) (h : x.units = y.units) : y.Nearest n := by
  have hd : y.distance n = x.distance n := by rw [distance, ← h, distance]
  constructor
  · intro z
    rw [hd]
    exact hx.closest z
  · intro z hz
    rw [← h, ← code_eq_of_units h]
    exact hx.even z (hd.symm.trans hz)

end Number

section Integer

variable {x : Binary64} {m n : Int}

theorem divideToEven_mul_self (w : Nat) {d : Nat} (hd : 0 < d) : divideToEven (w * d) d = w := by
  simp [divideToEven, hd]

/-- Natural numbers up to `2 ^ 53` are numbers of 64 bits. -/
theorem magnitude_codeOfNat_of_le {n : Nat} (h : n ≤ 2 ^ 53) :
    magnitude (codeOfNat n) = n * one := by
  by_cases hn : n = 0
  · rw [hn, codeOfNat_zero, magnitude_zero, Nat.zero_mul]
  · obtain ⟨w, hw⟩ : ∃ w, n * one = w * 2 ^ (n.log2 + 1022) := by
      rcases Nat.lt_or_eq_of_le h with hlt | heq
      · have hl : n.log2 < 53 := (Nat.log2_lt hn).mpr hlt
        have hone : one = 2 ^ (52 - n.log2) * 2 ^ (n.log2 + 1022) := one_eq_mul (by omega)
        exact ⟨n * 2 ^ (52 - n.log2), by rw [hone, Nat.mul_assoc]⟩
      · have hl : n.log2 = 53 := by rw [heq, Nat.log2_two_pow]
        have hone : 2 ^ 53 * one = 2 ^ 52 * 2 ^ (n.log2 + 1022) := by
          rw [← Nat.pow_add]
          exact two_pow_mul_one (by omega)
        exact ⟨2 ^ 52, (congrArg (· * one) heq).trans hone⟩
    rw [magnitude_codeOfNat hn, hw, divideToEven_mul_self w (Nat.two_pow_pos _)]

theorem units_ofInt_of_le (h : n.natAbs ≤ 2 ^ 53) : (ofInt n).units = n * one := by
  rw [units_ofInt, mul_one_eq, magnitude_codeOfNat_of_le h]

/-- An integer of `53 + k` binary digits is moved by half of `2 ^ k` at most. -/
theorem distance_ofInt_le {k : Nat} (h : n.natAbs < 2 ^ (53 + k)) :
    2 * (ofInt n).distance n ≤ 2 ^ k * one := by
  rw [distance_ofInt]
  by_cases hn : n.natAbs = 0
  · simp [hn]
  · have hl : n.natAbs.log2 < 53 + k := (Nat.log2_lt hn).mpr h
    have hunit : 2 ^ k * one = 2 ^ (k + 1074) := two_pow_mul_one rfl
    have hle : 2 ^ (n.natAbs.log2 + 1022) ≤ 2 ^ (k + 1074) :=
      Nat.pow_le_pow_right (by decide) (by omega)
    rw [magnitude_codeOfNat hn, hunit]
    exact Nat.le_trans (divideToEven_error (Nat.two_pow_pos _)) hle

theorem distance_of_units {a : Int} (h : x.units = a * one) :
    x.distance n = (a - n).natAbs * one := by
  rw [distance, h, ← Int.sub_mul, Int.natAbs_mul, Int.natAbs_natCast]

/-- Integers of 53 binary digits are told apart from all others. -/
theorem Nearest.eq_of_lt (hm : x.Nearest m) (hn : x.Nearest n) (h : m.natAbs < 2 ^ 53) :
    m = n := by
  have hx : x.units = m * one := by
    rw [hm.units_eq (nearest_ofInt m), units_ofInt_of_le (Nat.le_of_lt h)]
  -- The next integer on the side of the other one is a number of 64 bits and nearer to it.
  have hnext : ∀ a : Int, a.natAbs ≤ 2 ^ 53 → (m - n).natAbs ≤ (a - n).natAbs := by
    intro a ha
    have hc := hn.closest (ofInt a)
    rw [distance_of_units hx, distance_of_units (units_ofInt_of_le ha)] at hc
    exact Nat.le_of_mul_le_mul_right hc one_pos
  have hup := hnext (m + 1) (by omega)
  have hdown := hnext (m - 1) (by omega)
  omega

/-- Integers of `53 + k` binary digits that become one number are `2 ^ k` apart at most. -/
theorem Nearest.natAbs_sub_le {k : Nat} (hm : x.Nearest m) (hn : x.Nearest n)
    (h : m.natAbs < 2 ^ (53 + k)) (h' : n.natAbs < 2 ^ (53 + k)) : (m - n).natAbs ≤ 2 ^ k := by
  have hdm := Nat.le_trans (Nat.mul_le_mul_left 2 (hm.closest (ofInt m))) (distance_ofInt_le h)
  have hdn := Nat.le_trans (Nat.mul_le_mul_left 2 (hn.closest (ofInt n))) (distance_ofInt_le h')
  have hmul : (m - n).natAbs * one = (m * one - n * one).natAbs := by
    rw [← Int.sub_mul, Int.natAbs_mul, Int.natAbs_natCast]
  refine Nat.le_of_mul_le_mul_right (c := one) ?_ one_pos
  rw [hmul]
  unfold distance at hdm hdn
  omega

end Integer

end CatalogAssembly.Binary64
