import CatalogAssembly.Json.Value

/-!
# Paths into a JSON value

A path is a list of steps. A name leads into the field of an object, an index
into the element of an array; on an object an index is the field whose name is
its decimal numeral. `get?` reads a place, `slot?` also knows how to put another
value there, and `set?` never creates a place that is not there already.
-/
namespace CatalogAssembly

open Json (Value)

inductive Step where
  | key (name : String)
  | index (n : Nat)
  deriving DecidableEq, Repr

/-- The name of the field a step means on an object. -/
def Step.name : Step → String
  | .key name => name
  | .index n => toString n

abbrev Path := List Step

/-- Two paths part when, after equal steps, they name different fields. -/
inductive Path.Diverge : Path → Path → Prop
  | here {s t : Step} {p q : Path} (h : s.name ≠ t.name) : Diverge (s :: p) (t :: q)
  | later {s : Step} {p q : Path} (h : Diverge p q) : Diverge (s :: p) (s :: q)

namespace Json

/-- Gives the first field of this name another value. -/
def replaceField (name : String) (w : Value) : List (String × Value) → List (String × Value)
  | [] => []
  | (k, v) :: rest => if name = k then (k, w) :: rest else (k, v) :: replaceField name w rest

theorem lookup_replaceField (name other : String) (w : Value) (fields : List (String × Value)) :
    (replaceField name w fields).lookup other
      = if other = name then (fields.lookup name).map fun _ => w else fields.lookup other := by
  induction fields with
  | nil => simp [replaceField]
  | cons f fields ih =>
    obtain ⟨k, v⟩ := f
    by_cases hn : name = k
    · subst hn
      by_cases ho : other = name
      · simp [replaceField, ho]
      · have hb : (other == name) = false := beq_eq_false_iff_ne.mpr ho
        simp [replaceField, List.lookup_cons, ho, hb]
    · by_cases ho : other = k
      · subst ho
        simp [replaceField, hn, Ne.symm hn]
      · have hb : (other == k) = false := beq_eq_false_iff_ne.mpr ho
        have hb' : (name == k) = false := beq_eq_false_iff_ne.mpr hn
        simp [replaceField, List.lookup_cons, hn, hb, hb', ih]

/-- The names and their order stay. -/
theorem names_replaceField (name : String) (w : Value) (fields : List (String × Value)) :
    (replaceField name w fields).map (·.1) = fields.map (·.1) := by
  induction fields with
  | nil => rfl
  | cons f fields ih =>
    obtain ⟨k, v⟩ := f
    by_cases hn : name = k <;> simp [replaceField, hn, ih]

/-- The value one step further in. -/
def Value.child? (v : Value) (s : Step) : Option Value :=
  match v, s with
  | .object fields, s => fields.lookup s.name
  | .array items, .index n => items[n]?
  | _, _ => none

/-- The value with another one in the place of a child. -/
def Value.withChild (v : Value) (s : Step) (w : Value) : Value :=
  match v, s with
  | .object fields, s => .object (replaceField s.name w fields)
  | .array items, .index n => .array (items.set n w)
  | v, _ => v

theorem Value.child?_withChild {v c : Value} {s : Step} (h : v.child? s = some c) (w : Value) :
    (v.withChild s w).child? s = some w := by
  cases v with
  | object fields =>
    simp only [child?] at h
    simp [withChild, child?, lookup_replaceField, h]
  | array items =>
    cases s with
    | key name => simp [child?] at h
    | index n =>
      obtain ⟨hn, -⟩ := List.getElem?_eq_some_iff.mp h
      simp [withChild, child?, hn]
  | _ => simp [child?] at h

/-- Children under other names are not touched. -/
theorem Value.child?_withChild_of_ne {s t : Step} (h : s.name ≠ t.name) (v w : Value) :
    (v.withChild s w).child? t = v.child? t := by
  cases v with
  | object fields => simp [withChild, child?, lookup_replaceField, Ne.symm h]
  | array items =>
    cases s with
    | key name => rfl
    | index m =>
      cases t with
      | key name => rfl
      | index n =>
        have hmn : m ≠ n := fun e => h (by rw [e])
        simp [withChild, child?, List.getElem?_set_ne hmn]
  | _ => rfl

end Json

/-- A place inside a value: what it holds, and the whole once it holds something else. -/
structure Slot where
  value : Value
  put : Value → Value

namespace Path

def get? : Path → Value → Option Value
  | [], v => some v
  | s :: p, v =>
    match v.child? s with
    | some c => get? p c
    | none => none

@[simp] theorem get?_nil (v : Value) : get? [] v = some v := rfl

theorem get?_cons (s : Step) (p : Path) (v : Value) :
    get? (s :: p) v = (v.child? s).bind (get? p) := by
  simp only [get?]
  cases v.child? s <;> rfl

def slot? : Path → Value → Option Slot
  | [], v => some ⟨v, id⟩
  | s :: p, v =>
    match v.child? s with
    | some c => (slot? p c).map fun inner => ⟨inner.value, fun w => v.withChild s (inner.put w)⟩
    | none => none

/-- A slot holds what the path reads. -/
theorem slot?_value (p : Path) (v : Value) : (p.slot? v).map (·.value) = p.get? v := by
  induction p generalizing v with
  | nil => rfl
  | cons s p ih =>
    simp only [slot?, get?]
    cases v.child? s with
    | none => rfl
    | some c => simpa [Function.comp_def] using ih c

/-- The document with `w` at a place that exists. -/
def set? (p : Path) (v w : Value) : Option Value := (p.slot? v).map (·.put w)

def join (p q : Path) : Path := p ++ q

theorem get?_join (p q : Path) (v : Value) : (p.join q).get? v = (p.get? v).bind q.get? := by
  induction p generalizing v with
  | nil => rfl
  | cons s p ih =>
    change get? (s :: join p q) v = _
    rw [get?_cons, get?_cons]
    cases v.child? s with
    | none => rfl
    | some c => exact ih c

def atIndex (p : Path) (n : Nat) : Path := p ++ [.index n]

end Path

end CatalogAssembly
