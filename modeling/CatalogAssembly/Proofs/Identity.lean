import CatalogAssembly.Identity

/-!
# Identity of identifiers

Plain equality of values is an equivalence, and so is `sameId`, which differs
from it on numbers alone: those are the same when their 64-bit values are equal.
What has the identifier of a payload in its place keeps matching exactly what
was matched before, which is what chains of substitutions rest on.
-/
namespace CatalogAssembly

open Json (Value Number)

namespace Json

namespace Number

@[simp] theorem equal_self (n : Number) : n.equal n = true := by
  cases n <;> simp [equal]

theorem equal_comm (m n : Number) : m.equal n = n.equal m := by
  cases m <;> cases n <;> simp [equal, Binary64.equal_comm, Bool.beq_comm]

theorem equal_trans {l m n : Number} (hlm : l.equal m = true) (hmn : m.equal n = true) :
    l.equal n = true := by
  cases l <;> cases m <;> cases n <;> simp only [equal, beq_iff_eq, Bool.false_eq_true] at *
  · exact hlm.trans hmn
  · exact Binary64.equal_trans hlm hmn

/-- Equal numbers have the same 64-bit value. -/
theorem toBinary64_equal {m n : Number} (h : m.equal n = true) :
    m.toBinary64.equal n.toBinary64 = true := by
  cases m <;> cases n <;> simp only [equal, beq_iff_eq, Bool.false_eq_true] at h
  · subst h
    exact Binary64.equal_self _
  · exact h

end Number

namespace Value

mutual

theorem equal_self : (v : Value) → v.equal v = true
  | .null => rfl
  | .bool b => by simp [equal]
  | .number n => by simp [equal]
  | .string s => by simp [equal]
  | .array items => equalItems_self items
  | .object fields => equalFields_self fields

theorem equalItems_self : (items : List Value) → equalItems items items = true
  | [] => rfl
  | v :: items => by simp [equalItems, equal_self v, equalItems_self items]

theorem equalFields_self : (fields : List (String × Value)) → equalFields fields fields = true
  | [] => rfl
  | (name, v) :: fields => by simp [equalFields, equal_self v, equalFields_self fields]

end

mutual

theorem equal_symm : (v w : Value) → v.equal w = true → w.equal v = true
  | .null, w, h => by cases w <;> simp_all [equal]
  | .bool a, w, h => by cases w <;> simp_all [equal]
  | .number m, w, h => by cases w <;> simp_all [equal, Number.equal_comm m]
  | .string s, w, h => by cases w <;> simp_all [equal]
  | .array xs, w, h => by
    cases w with
    | array ys => exact equalItems_symm xs ys h
    | _ => simp [equal] at h
  | .object fs, w, h => by
    cases w with
    | object gs => exact equalFields_symm fs gs h
    | _ => simp [equal] at h

theorem equalItems_symm : (xs ys : List Value) → equalItems xs ys = true → equalItems ys xs = true
  | [], ys, h => by cases ys <;> simp_all [equalItems]
  | x :: xs, ys, h => by
    cases ys with
    | nil => simp [equalItems] at h
    | cons y ys =>
      simp only [equalItems, Bool.and_eq_true] at h ⊢
      exact ⟨equal_symm x y h.1, equalItems_symm xs ys h.2⟩

theorem equalFields_symm : (fs gs : List (String × Value)) → equalFields fs gs = true →
    equalFields gs fs = true
  | [], gs, h => by cases gs <;> simp_all [equalFields]
  | (k, x) :: fs, gs, h => by
    cases gs with
    | nil => simp [equalFields] at h
    | cons g gs =>
      obtain ⟨l, y⟩ := g
      simp only [equalFields, Bool.and_eq_true, beq_iff_eq] at h ⊢
      exact ⟨⟨h.1.1.symm, equal_symm x y h.1.2⟩, equalFields_symm fs gs h.2⟩

end

mutual

theorem equal_trans : (u v w : Value) → u.equal v = true → v.equal w = true → u.equal w = true
  | .null, v, w, hv, hw => by
    cases v with
    | null => exact hw
    | _ => simp [equal] at hv
  | .bool a, v, w, hv, hw => by
    cases v with
    | bool b =>
      have hb : a = b := beq_iff_eq.mp hv
      exact hb ▸ hw
    | _ => simp [equal] at hv
  | .number l, v, w, hv, hw => by
    cases v with
    | number m =>
      cases w with
      | number n => exact Number.equal_trans hv hw
      | _ => simp [equal] at hw
    | _ => simp [equal] at hv
  | .string s, v, w, hv, hw => by
    cases v with
    | string t =>
      have ht : s = t := beq_iff_eq.mp hv
      exact ht ▸ hw
    | _ => simp [equal] at hv
  | .array xs, v, w, hv, hw => by
    cases v with
    | array ys =>
      cases w with
      | array zs => exact equalItems_trans xs ys zs hv hw
      | _ => simp [equal] at hw
    | _ => simp [equal] at hv
  | .object fs, v, w, hv, hw => by
    cases v with
    | object gs =>
      cases w with
      | object hs => exact equalFields_trans fs gs hs hv hw
      | _ => simp [equal] at hw
    | _ => simp [equal] at hv

theorem equalItems_trans : (xs ys zs : List Value) → equalItems xs ys = true →
    equalItems ys zs = true → equalItems xs zs = true
  | [], ys, zs, hy, hz => by cases ys <;> simp_all [equalItems]
  | x :: xs, ys, zs, hy, hz => by
    cases ys with
    | nil => simp [equalItems] at hy
    | cons y ys =>
      cases zs with
      | nil => simp [equalItems] at hz
      | cons z zs =>
        simp only [equalItems, Bool.and_eq_true] at hy hz ⊢
        exact ⟨equal_trans x y z hy.1 hz.1, equalItems_trans xs ys zs hy.2 hz.2⟩

theorem equalFields_trans : (fs gs hs : List (String × Value)) → equalFields fs gs = true →
    equalFields gs hs = true → equalFields fs hs = true
  | [], gs, hs, hg, hh => by cases gs <;> simp_all [equalFields]
  | (k, x) :: fs, gs, hs, hg, hh => by
    cases gs with
    | nil => simp [equalFields] at hg
    | cons g gs =>
      obtain ⟨l, y⟩ := g
      cases hs with
      | nil => simp [equalFields] at hh
      | cons h hs =>
        obtain ⟨m, z⟩ := h
        simp only [equalFields, Bool.and_eq_true, beq_iff_eq] at hg hh ⊢
        exact ⟨⟨hg.1.1.trans hh.1.1, equal_trans x y z hg.1.2 hh.1.2⟩,
          equalFields_trans fs gs hs hg.2 hh.2⟩

end

end Value

end Json

/-- On numbers plain equality adds nothing to equality of the 64-bit values. -/
theorem sameId_number (m n : Number) :
    sameId (.number m) (.number n) = m.toBinary64.equal n.toBinary64 := by
  rw [Bool.eq_iff_iff]
  simp only [sameId, Bool.or_eq_true]
  exact ⟨fun h => h.elim Number.toBinary64_equal id, .inr⟩

/-- Everywhere else it is plain equality. -/
theorem sameId_eq_equal {v w : Value} (h : ∀ m n, v = .number m → w ≠ .number n) :
    sameId v w = v.equal w := by
  unfold sameId
  split
  · exact absurd rfl (h _ _ rfl)
  · rfl

@[simp] theorem sameId_self (v : Value) : sameId v v = true := by
  cases v with
  | number n => rw [sameId_number, Binary64.equal_self]
  | _ => exact Value.equal_self _

theorem sameId_symm {v w : Value} (h : sameId v w = true) : sameId w v = true := by
  by_cases hn : ∃ m n, v = .number m ∧ w = .number n
  · obtain ⟨m, n, rfl, rfl⟩ := hn
    rwa [sameId_number, Binary64.equal_comm, ← sameId_number]
  · rw [sameId_eq_equal fun m n hv hw => hn ⟨m, n, hv, hw⟩] at h
    rw [sameId_eq_equal fun n m hw hv => hn ⟨m, n, hv, hw⟩]
    exact Value.equal_symm v w h

/-- What is the same as a number is a number. -/
theorem exists_number_of_sameId {v w : Value} {m : Number} (hv : v = .number m)
    (h : sameId v w = true) : ∃ n, w = .number n := by
  subst hv
  cases w <;> simp [sameId, Value.equal] at h ⊢

theorem sameId_trans {u v w : Value} (huv : sameId u v = true) (hvw : sameId v w = true) :
    sameId u w = true := by
  by_cases hn : ∃ m, v = .number m
  · obtain ⟨m, hm⟩ := hn
    obtain ⟨l, rfl⟩ := exists_number_of_sameId hm (sameId_symm huv)
    obtain ⟨n, rfl⟩ := exists_number_of_sameId hm hvw
    subst hm
    rw [sameId_number] at *
    exact Binary64.equal_trans huv hvw
  · have hu : ∀ l, u ≠ .number l := fun l hl => hn (exists_number_of_sameId hl huv)
    rw [sameId_eq_equal fun l _ hl => absurd hl (hu l)] at huv ⊢
    rw [sameId_eq_equal fun m _ hm => absurd ⟨m, hm⟩ hn] at hvw
    exact Value.equal_trans u v w huv hvw

/-- Null is the same as itself only. -/
theorem ne_null_of_sameId {v w : Value} (hv : v ≠ .null) (h : sameId v w = true) : w ≠ .null := by
  rintro rfl
  cases v <;> simp [sameId, Value.equal] at hv h

theorem matchingIds_iff {a b : Option Value} :
    matchingIds a b = true ↔ ∃ v w, a = some v ∧ b = some w ∧ sameId v w = true := by
  cases a <;> cases b <;> simp [matchingIds]

/-- Values that are the same match the same identifiers. -/
theorem matchingIds_congr {v w : Value} (h : sameId v w = true) (a : Option Value) :
    matchingIds (some v) a = matchingIds (some w) a := by
  cases a with
  | none => rfl
  | some u => exact Bool.eq_iff_iff.mpr ⟨sameId_trans (sameId_symm h), sameId_trans h⟩

theorem matchingIds_trans {a b c : Option Value} (hab : matchingIds a b = true)
    (hbc : matchingIds b c = true) : matchingIds a c = true := by
  obtain ⟨u, v, rfl, rfl, huv⟩ := matchingIds_iff.mp hab
  rwa [matchingIds_congr huv]

namespace Json.Value

theorem present?_eq_some {o : Option Value} {v : Value} :
    present? o = some v ↔ o = some v ∧ v ≠ .null := by
  cases o with
  | none => simp [present?]
  | some w => cases w <;> cases v <;> simp [present?]

theorem present?_eq_none {o : Option Value} : present? o = none ↔ o = none ∨ o = some .null := by
  cases o with
  | none => simp [present?]
  | some w => cases w <;> simp [present?]

/-- Whether a value is its own identifier. -/
def isScalar : Value → Bool
  | .bool _ => true
  | .number _ => true
  | .string _ => true
  | _ => false

theorem slotId?_of_isScalar {v : Value} (h : v.isScalar = true) : v.slotId? = some v := by
  cases v with
  | bool | number | string => rfl
  | _ => cases h

/-- Only an object has the identifier of a payload. -/
theorem exists_fields_of_payloadId? {v id : Value} (h : v.payloadId? = some id) :
    ∃ fields, v = .object fields := by
  cases v <;> simp_all [payloadId?, field?, present?]

theorem slotId?_of_payloadId? {v id : Value} (h : v.payloadId? = some id) :
    v.slotId? = some id := by
  obtain ⟨fields, rfl⟩ := exists_fields_of_payloadId? h
  exact h

/-- A payload in a slot is matched by what matches the payload. -/
theorem matchingIds_slotId?_right {a : Option Value} {payload : Value}
    (h : matchingIds a payload.payloadId? = true) : matchingIds a payload.slotId? = true := by
  obtain ⟨v, w, hv, hw, hvw⟩ := matchingIds_iff.mp h
  exact matchingIds_iff.mpr ⟨v, w, hv, slotId?_of_payloadId? hw, hvw⟩

/-- A payload put in the place of a value it matches goes on matching what the value matched. -/
theorem matchingIds_slotId? {v payload : Value}
    (h : matchingIds v.slotId? payload.payloadId? = true) (a : Option Value) :
    matchingIds payload.slotId? a = matchingIds v.slotId? a := by
  obtain ⟨x, y, hx, hy, hxy⟩ := matchingIds_iff.mp h
  rw [slotId?_of_payloadId? hy, hx, matchingIds_congr hxy]

end Json.Value

end CatalogAssembly
