import CatalogAssembly.Proofs.Equivalence
import CatalogAssembly.Proofs.Outcome

/-!
# Integers as identifiers

Two integers are the same identifier when they round to the same number of 64
bits. Those of 53 binary digits are told apart from all others, and a payload
identified by one replaces no element identified by another integer. Beyond
that, neighbours become one: the first two that do are `2 ^ 53` and the integer
after it, and then the payload of the one replaces the placeholder of the other.
-/
namespace CatalogAssembly

open Json (Value)

theorem sameId_ofInt (m n : Int) :
    sameId (.ofInt m) (.ofInt n) = true ↔ ∃ x : Binary64, x.Nearest m ∧ x.Nearest n :=
  sameId_number_iff (.integer m) (.integer n)

theorem sameId_ofInt_of_lt {m n : Int} (h : m.natAbs < 2 ^ 53 ∨ n.natAbs < 2 ^ 53) :
    sameId (.ofInt m) (.ofInt n) = true ↔ m = n := by
  constructor
  · intro hs
    obtain ⟨x, hm, hn⟩ := (sameId_ofInt m n).mp hs
    rcases h with h | h
    · exact hm.eq_of_lt hn h
    · exact (hn.eq_of_lt hm h).symm
  · rintro rfl
    exact sameId_self _

/-- A collection that takes a payload is gone through element by element. -/
theorem substitute_items {mode : Mode} {f : Fragment} {place : Path} {items : List Value}
    {s : Substitution} (h : substitute mode f place (.array items) = .ok s) :
    s.value = .array (items.map (fillElement f)) := by
  have hc : ∀ e, ¬ Clash mode f place (.array items) e := by
    intro e he
    rw [substitute_of_clash he] at h
    cases h
  rw [substitute_of_not_clash (by simp) hc] at h
  cases h
  rfl

theorem fillElement_ofInt {f : Fragment} {element : Value} {m n : Int}
    (hid : f.id? = some (.ofInt n)) (helement : element.slotId? = some (.ofInt m)) :
    fillElement f element = if sameId (.ofInt m) (.ofInt n) then f.payload else element := by
  rw [fillElement, hid, helement, matchingIds]

/-- What comes of an element identified by one integer when a payload identified by another
is put in its collection. -/
structure IntegerIds (m n : Int) : Prop where
  rounded : sameId (.ofInt m) (.ofInt n) = true ↔ ∃ x : Binary64, x.Nearest m ∧ x.Nearest n
  exact : m.natAbs < 2 ^ 53 ∨ n.natAbs < 2 ^ 53 → (sameId (.ofInt m) (.ofInt n) = true ↔ m = n)
  near (k : Nat) : m.natAbs < 2 ^ (53 + k) → n.natAbs < 2 ^ (53 + k) →
    sameId (.ofInt m) (.ofInt n) = true → (m - n).natAbs ≤ 2 ^ k
  filled {mode : Mode} {f : Fragment} {place : Path} {items : List Value} {s : Substitution}
    {i : Nat} {element : Value} (payload : f.id? = some (.ofInt n))
    (here : items[i]? = some element) (slot : element.slotId? = some (.ofInt m))
    (done : substitute mode f place (.array items) = .ok s) :
    ∃ items', s.value = .array items' ∧
      items'[i]? = some (if sameId (.ofInt m) (.ofInt n) then f.payload else element)
  kept {mode : Mode} {f : Fragment} {place : Path} {items : List Value} {s : Substitution}
    {i : Nat} {element : Value} (payload : f.id? = some (.ofInt n))
    (here : items[i]? = some element) (slot : element.slotId? = some (.ofInt m)) (other : m ≠ n)
    (small : m.natAbs < 2 ^ 53 ∨ n.natAbs < 2 ^ 53)
    (done : substitute mode f place (.array items) = .ok s) :
    ∃ items', s.value = .array items' ∧ items'[i]? = some element

theorem integerIds (m n : Int) : IntegerIds m n where
  rounded := sameId_ofInt m n
  exact := sameId_ofInt_of_lt
  near k h h' hs := by
    obtain ⟨x, hm, hn⟩ := (sameId_ofInt m n).mp hs
    exact hm.natAbs_sub_le hn h h'
  filled payload here slot done := by
    refine ⟨_, substitute_items done, ?_⟩
    rw [List.getElem?_map, here, Option.map_some, fillElement_ofInt payload slot]
  kept payload here slot other small done := by
    have hs := (sameId_ofInt_of_lt small).not.mpr other
    refine ⟨_, substitute_items done, ?_⟩
    rw [List.getElem?_map, here, Option.map_some, fillElement_ofInt payload slot, if_neg hs]

/-- The payload of `2 ^ 53 + 1` takes the place of `2 ^ 53`. -/
theorem neighbours_confused :
    (9007199254740992 : Int) ≠ 9007199254740993 ∧
      sameId (.ofInt 9007199254740992) (.ofInt 9007199254740993) = true ∧
      substitute .strict ⟨"track", .object [("id", .ofInt 9007199254740993)]⟩ []
          (.array [.ofInt 9007199254740992])
        = .ok ⟨.array [.object [("id", .ofInt 9007199254740993)]], true⟩ :=
  ⟨by decide, rfl, rfl⟩

end CatalogAssembly
