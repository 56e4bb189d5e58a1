import CatalogAssembly.Proofs.Identity
import CatalogAssembly.Proofs.Rounding

/-!
# Identifiers as an equivalence

Plain equality tells values apart up to the signs of zeros, at any depth: it is
equality of the values with those signs dropped. Identity of identifiers adds to
it the numbers with the same value of 64 bits, be they integers or binary
numbers, and stays an equivalence: that value is one for each number, whichever
of the two kinds it is of.
-/
namespace CatalogAssembly

open Json (Value Number)

/-- The number without the sign of a zero. -/
def Binary64.unsigned (x : Binary64) : Binary64 := if x.code = 0 then zero false else x

theorem Binary64.equal_iff_unsigned {x y : Binary64} :
    x.equal y = true ↔ x.unsigned = y.unsigned := by
  obtain ⟨s, c⟩ := x
  obtain ⟨t, d⟩ := y
  simp only [equal, unsigned, zero, Bool.and_eq_true, Bool.or_eq_true, beq_iff_eq]
  by_cases hc : c = 0 <;> by_cases hd : d = 0
  · simp [hc, hd]
  · simp [hc, hd, Ne.symm hd]
  · simp [hc, hd]
  · simp [hc, hd, and_comm]

namespace Json

def Number.unsigned : Number → Number
  | .integer n => .integer n
  | .real x => .real x.unsigned

theorem Number.equal_iff_unsigned {m n : Number} :
    m.equal n = true ↔ m.unsigned = n.unsigned := by
  cases m <;> cases n <;> simp [equal, unsigned, Binary64.equal_iff_unsigned]

namespace Value

mutual

/-- The value without the signs of its zeros. -/
def unsigned : Value → Value
  | .null => .null
  | .bool b => .bool b
  | .number n => .number n.unsigned
  | .string s => .string s
  | .array items => .array (unsignedItems items)
  | .object fields => .object (unsignedFields fields)

def unsignedItems : List Value → List Value
  | [] => []
  | v :: items => unsigned v :: unsignedItems items

def unsignedFields : List (String × Value) → List (String × Value)
  | [] => []
  | (name, v) :: fields => (name, unsigned v) :: unsignedFields fields

end

mutual

/-- Values are equal when nothing but the signs of zeros tells them apart. -/
theorem equal_iff_unsigned : (v w : Value) → (v.equal w = true ↔ v.unsigned = w.unsigned)
  | .null, w => by cases w <;> simp [equal, unsigned]
  | .bool a, w => by cases w <;> simp [equal, unsigned]
  | .number m, w => by cases w <;> simp [equal, unsigned, Number.equal_iff_unsigned]
  | .string s, w => by cases w <;> simp [equal, unsigned]
  | .array xs, w => by
    cases w with
    | array ys => simp [equal, unsigned, equalItems_iff_unsigned xs ys]
    | _ => simp [equal, unsigned]
  | .object fs, w => by
    cases w with
    | object gs => simp [equal, unsigned, equalFields_iff_unsigned fs gs]
    | _ => simp [equal, unsigned]

theorem equalItems_iff_unsigned :
    (xs ys : List Value) → (equalItems xs ys = true ↔ unsignedItems xs = unsignedItems ys)
  | [], ys => by cases ys <;> simp [equalItems, unsignedItems]
  | x :: xs, ys => by
    cases ys with
    | nil => simp [equalItems, unsignedItems]
    | cons y ys =>
      simp [equalItems, unsignedItems, equal_iff_unsigned x y, equalItems_iff_unsigned xs ys]

theorem equalFields_iff_unsigned :
    (fs gs : List (String × Value)) →
      (equalFields fs gs = true ↔ unsignedFields fs = unsignedFields gs)
  | [], gs => by cases gs <;> simp [equalFields, unsignedFields]
  | (k, x) :: fs, gs => by
    cases gs with
    | nil => simp [equalFields, unsignedFields]
    | cons g gs =>
      simp [equalFields, unsignedFields, equal_iff_unsigned x g.2,
        equalFields_iff_unsigned fs gs]

end

end Value

/-- The number has this value of 64 bits: an integer the nearest one, a binary number its own. -/
def Number.HasValue : Number → Binary64 → Prop
  | .integer n, x => x.Nearest n
  | .real y, x => x.units = y.units

namespace Number

variable {m : Number} {x y : Binary64}

theorem hasValue_toBinary64 (m : Number) : m.HasValue m.toBinary64 := by
  cases m with
  | integer n => exact Binary64.nearest_ofInt n
  | real y => rfl

theorem HasValue.units_eq (hx : m.HasValue x) (hy : m.HasValue y) : x.units = y.units := by
  cases m with
  | integer n => exact Binary64.Nearest.units_eq hx hy
  | real z => exact Eq.trans hx (Eq.symm hy)

theorem HasValue.congr (hx : m.HasValue x) (h : x.units = y.units) : m.HasValue y := by
  cases m with
  | integer n => exact Binary64.Nearest.congr hx h
  | real z => exact h.symm.trans hx

end Number

end Json

/-- Two numbers are the same identifier when they have a value of 64 bits in common. -/
theorem sameId_number_iff (m n : Number) :
    sameId (.number m) (.number n) = true ↔ ∃ x, m.HasValue x ∧ n.HasValue x := by
  rw [sameId_number, Binary64.equal_iff_units]
  constructor
  · intro h
    exact ⟨m.toBinary64, m.hasValue_toBinary64, n.hasValue_toBinary64.congr h.symm⟩
  · rintro ⟨x, hm, hn⟩
    exact (m.hasValue_toBinary64.units_eq hm).trans (hn.units_eq n.hasValue_toBinary64)

theorem sameId_of_equal {v w : Value} (h : v.equal w = true) : sameId v w = true := by
  by_cases hn : ∃ m n, v = .number m ∧ w = .number n
  · obtain ⟨m, n, rfl, rfl⟩ := hn
    rw [sameId_number]
    exact Number.toBinary64_equal h
  · rwa [sameId_eq_equal fun m n hv hw => hn ⟨m, n, hv, hw⟩]

/-- A comparison of values that is an equivalence, contains plain equality (which only the
signs of zeros escape), is no more than that unless it compares two numbers, and compares
numbers by their values of 64 bits. -/
structure ComparesIds (same : Value → Value → Bool) : Prop where
  equivalence : Equivalence fun v w => same v w = true
  plain (v w : Value) : v.equal w = true ↔ v.unsigned = w.unsigned
  contains (v w : Value) : v.equal w = true → same v w = true
  coincides (v w : Value) : (¬ ∃ m n, v = .number m ∧ w = .number n) → same v w = v.equal w
  numbers (m n : Number) :
    same (.number m) (.number n) = true ↔ ∃ x, m.HasValue x ∧ n.HasValue x

theorem comparesIds_sameId : ComparesIds sameId where
  equivalence := ⟨sameId_self, sameId_symm, sameId_trans⟩
  plain := Value.equal_iff_unsigned
  contains _ _ := sameId_of_equal
  coincides _ _ h := sameId_eq_equal fun m n hv hw => h ⟨m, n, hv, hw⟩
  numbers := sameId_number_iff

end CatalogAssembly
