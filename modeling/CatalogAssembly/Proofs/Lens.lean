import CatalogAssembly.Path.Basic

/-!
# Paths as lenses

Reading and setting along one path obey the laws of a lens: a place reads what
was put into it, a second value takes the place of the first, and putting back
what is there changes nothing. A place is set exactly when it is there. Along
paths that diverge, setting one leaves what the other reads, and two settings
may change their order. A joined path sets inside the value its first part reads.
All of this together is `lawful`.
-/
namespace CatalogAssembly

open Json (Value)

namespace Json

theorem replaceField_replaceField (name : String) (x y : Value) (fields : List (String × Value)) :
    replaceField name y (replaceField name x fields) = replaceField name y fields := by
  induction fields with
  | nil => rfl
  | cons f fields ih =>
    obtain ⟨k, v⟩ := f
    by_cases hn : name = k <;> simp [replaceField, hn, ih]

theorem replaceField_comm {a b : String} (h : a ≠ b) (x y : Value)
    (fields : List (String × Value)) :
    replaceField b y (replaceField a x fields) = replaceField a x (replaceField b y fields) := by
  induction fields with
  | nil => rfl
  | cons f fields ih =>
    obtain ⟨k, v⟩ := f
    by_cases ha : a = k
    · have hb : b ≠ k := fun hb => h (ha.trans hb.symm)
      simp [replaceField, ha, hb]
    · by_cases hb : b = k <;> simp [replaceField, ha, hb, ih]

/-- A field that is given the value it has stays. -/
theorem replaceField_of_lookup {name : String} {v : Value} {fields : List (String × Value)}
    (h : fields.lookup name = some v) : replaceField name v fields = fields := by
  induction fields with
  | nil => rfl
  | cons f fields ih =>
    obtain ⟨k, w⟩ := f
    by_cases hn : name = k
    · subst hn
      simp only [List.lookup_cons, beq_self_eq_true, Option.some.injEq] at h
      simp [replaceField, h]
    · rw [List.lookup_cons, beq_eq_false_iff_ne.mpr hn] at h
      simp [replaceField, hn, ih h]

theorem Value.withChild_withChild (v : Value) (s : Step) (x y : Value) :
    (v.withChild s x).withChild s y = v.withChild s y := by
  cases v with
  | object fields => simp [withChild, replaceField_replaceField]
  | array items => cases s <;> simp [withChild]
  | _ => rfl

theorem Value.withChild_comm {s t : Step} (h : s.name ≠ t.name) (v x y : Value) :
    (v.withChild s x).withChild t y = (v.withChild t y).withChild s x := by
  cases v with
  | object fields => simp [withChild, replaceField_comm h]
  | array items =>
    cases s with
    | key name => cases t <;> rfl
    | index m =>
      cases t with
      | key name => rfl
      | index n =>
        have hmn : m ≠ n := fun e => h (by rw [e])
        simp [withChild, List.set_comm _ _ hmn]
  | _ => rfl

theorem Value.withChild_of_child? {v c : Value} {s : Step} (h : v.child? s = some c) :
    v.withChild s c = v := by
  cases v with
  | object fields => simp only [withChild, replaceField_of_lookup h]
  | array items =>
    cases s with
    | key name => rfl
    | index n =>
      obtain ⟨hn, rfl⟩ := List.getElem?_eq_some_iff.mp h
      simp [withChild]
  | _ => rfl

end Json

namespace Path

theorem Diverge.symm {p q : Path} (h : p.Diverge q) : q.Diverge p := by
  induction h with
  | here h => exact .here h.symm
  | later _ ih => exact .later ih

theorem get?_key (name : String) (v : Value) : get? [.key name] v = v.field? name := by
  rw [get?_cons, funext get?_nil, Option.bind_fun_some]
  cases v <;> rfl

theorem get?_atIndex (p : Path) (n : Nat) (v : Value) :
    (p.atIndex n).get? v = (p.get? v).bind (·.child? (.index n)) := by
  refine (get?_join p [.index n] v).trans (Option.bind_congr fun c _ => ?_)
  rw [get?_cons, funext get?_nil, Option.bind_fun_some]

@[simp] theorem set?_nil (v w : Value) : set? [] v w = some w := rfl

theorem set?_cons (s : Step) (p : Path) (v w : Value) :
    set? (s :: p) v w = (v.child? s).bind fun c => (p.set? c w).map (v.withChild s) := by
  cases hc : v.child? s with
  | none => simp [set?, slot?, hc]
  | some c => simp [set?, slot?, hc, Function.comp_def]

/-- Exactly the places that are there are set. -/
theorem isSome_set? (p : Path) (v w : Value) : (p.set? v w).isSome = (p.get? v).isSome := by
  rw [← slot?_value, set?, Option.isSome_map, Option.isSome_map]

theorem exists_set? {p : Path} {v c : Value} (h : p.get? v = some c) (w : Value) :
    ∃ v', p.set? v w = some v' :=
  Option.isSome_iff_exists.mp (by rw [isSome_set?, h, Option.isSome_some])

theorem get?_of_set? {p : Path} {v w v' : Value} (h : p.set? v w = some v') :
    p.get? v' = some w := by
  induction p generalizing v v' with
  | nil => simpa using h.symm
  | cons s p ih =>
    rw [set?_cons, Option.bind_eq_some_iff] at h
    obtain ⟨c, hc, h⟩ := h
    obtain ⟨c', hc', rfl⟩ := Option.map_eq_some_iff.mp h
    rw [get?_cons, Value.child?_withChild hc, Option.bind_some, ih hc']

theorem get?_of_set?_of_diverge {p q : Path} (hd : p.Diverge q) {v w v' : Value}
    (h : p.set? v w = some v') : q.get? v' = q.get? v := by
  induction hd generalizing v v' with
  | here hn =>
    rw [set?_cons, Option.bind_eq_some_iff] at h
    obtain ⟨c, -, h⟩ := h
    obtain ⟨c', -, rfl⟩ := Option.map_eq_some_iff.mp h
    rw [get?_cons, get?_cons, Value.child?_withChild_of_ne hn]
  | later _ ih =>
    rw [set?_cons, Option.bind_eq_some_iff] at h
    obtain ⟨c, hc, h⟩ := h
    obtain ⟨c', hc', rfl⟩ := Option.map_eq_some_iff.mp h
    rw [get?_cons, get?_cons, Value.child?_withChild hc, hc, Option.bind_some, Option.bind_some,
      ih hc']

theorem set?_of_set? {p : Path} {v x v' : Value} (h : p.set? v x = some v') (y : Value) :
    p.set? v' y = p.set? v y := by
  induction p generalizing v v' with
  | nil => rfl
  | cons s p ih =>
    rw [set?_cons, Option.bind_eq_some_iff] at h
    obtain ⟨c, hc, h⟩ := h
    obtain ⟨c', hc', rfl⟩ := Option.map_eq_some_iff.mp h
    rw [set?_cons, set?_cons, Value.child?_withChild hc, hc, Option.bind_some, Option.bind_some,
      ih hc']
    simp only [funext (Value.withChild_withChild v s c')]

theorem set?_of_get? {p : Path} {v c : Value} (h : p.get? v = some c) : p.set? v c = some v := by
  induction p generalizing v with
  | nil => simpa using h.symm
  | cons s p ih =>
    rw [get?_cons, Option.bind_eq_some_iff] at h
    obtain ⟨d, hd, h⟩ := h
    rw [set?_cons, hd, Option.bind_some, ih h, Option.map_some, Value.withChild_of_child? hd]

/-- Both orders lead to the same document. -/
theorem set?_comm {p q : Path} (hd : p.Diverge q) {v x y v₁ v₂ : Value}
    (hp : p.set? v x = some v₁) (hq : q.set? v y = some v₂) : q.set? v₁ y = p.set? v₂ x := by
  induction hd generalizing v v₁ v₂ with
  | here hn =>
    rw [set?_cons, Option.bind_eq_some_iff] at hp hq
    obtain ⟨c, hc, hp⟩ := hp
    obtain ⟨c', hc', rfl⟩ := Option.map_eq_some_iff.mp hp
    obtain ⟨d, hd, hq⟩ := hq
    obtain ⟨d', hd', rfl⟩ := Option.map_eq_some_iff.mp hq
    rw [set?_cons, set?_cons, Value.child?_withChild_of_ne hn, hd,
      Value.child?_withChild_of_ne hn.symm, hc, Option.bind_some, Option.bind_some, hc', hd',
      Option.map_some, Option.map_some, Value.withChild_comm hn]
  | @later s p q _ ih =>
    rw [set?_cons, Option.bind_eq_some_iff] at hp hq
    obtain ⟨c, hc, hp⟩ := hp
    obtain ⟨c₁, hc₁, rfl⟩ := Option.map_eq_some_iff.mp hp
    obtain ⟨d, hd, hq⟩ := hq
    obtain ⟨c₂, hc₂, rfl⟩ := Option.map_eq_some_iff.mp hq
    obtain rfl : c = d := Option.some.inj (hc.symm.trans hd)
    rw [set?_cons, set?_cons, Value.child?_withChild hc, Value.child?_withChild hc,
      Option.bind_some, Option.bind_some, ih hc₁ hc₂]
    simp only [funext (Value.withChild_withChild v s c₁), funext (Value.withChild_withChild v s c₂)]

/-- A joined path sets inside the value its first part reads. -/
theorem set?_join (p q : Path) (v w : Value) :
    (p.join q).set? v w = (p.get? v).bind fun c => (q.set? c w).bind (p.set? v) := by
  induction p generalizing v with
  | nil =>
    change q.set? v w = (q.set? v w).bind some
    rw [Option.bind_fun_some]
  | cons s p ih =>
    change set? (s :: join p q) v w = _
    rw [set?_cons, get?_cons, funext (set?_cons s p v)]
    cases hc : v.child? s with
    | none => rfl
    | some c =>
      rw [Option.bind_some, Option.bind_some, ih]
      cases get? p c with
      | none => rfl
      | some d =>
        rw [Option.bind_some, Option.bind_some]
        cases q.set? d w <;> rfl

theorem set?_atIndex {p : Path} {v : Value} {items : List Value} {n : Nat}
    (h : p.get? v = some (.array items)) (hn : n < items.length) (w : Value) :
    (p.atIndex n).set? v w = p.set? v (.array (items.set n w)) := by
  have hw : set? [.index n] (.array items) w = some (.array (items.set n w)) := by
    rw [set?_cons, Value.child?, List.getElem?_eq_getElem hn]
    rfl
  exact (set?_join p [.index n] v w).trans (by rw [h, Option.bind_some, hw, Option.bind_some])

/-- The value with another one at a place, and as it is where the place is not there. -/
def put (p : Path) (v w : Value) : Value := (p.set? v w).getD v

theorem put_of_set? {p : Path} {v w v' : Value} (h : p.set? v w = some v') : p.put v w = v' := by
  rw [put, h, Option.getD_some]

theorem put_of_get?_eq_none {p : Path} {v : Value} (h : p.get? v = none) (w : Value) :
    p.put v w = v := by
  have hs : p.set? v w = none := by
    rw [← Option.not_isSome_iff_eq_none, isSome_set?, h]
    exact Bool.false_ne_true
  rw [put, hs, Option.getD_none]

theorem get?_put {p : Path} {v c : Value} (h : p.get? v = some c) (w : Value) :
    p.get? (p.put v w) = some w := by
  obtain ⟨v', hv⟩ := exists_set? h w
  rw [put_of_set? hv, get?_of_set? hv]

theorem get?_put_of_diverge {p q : Path} (hd : p.Diverge q) (v w : Value) :
    q.get? (p.put v w) = q.get? v := by
  cases h : p.set? v w with
  | none => rw [put, h, Option.getD_none]
  | some v' => rw [put_of_set? h, get?_of_set?_of_diverge hd h]

theorem put_put (p : Path) (v x y : Value) : p.put (p.put v x) y = p.put v y := by
  cases hp : p.get? v with
  | none => rw [put_of_get?_eq_none hp]
  | some c =>
    obtain ⟨v', h⟩ := exists_set? hp x
    rw [put_of_set? h, put, set?_of_set? h]
    obtain ⟨w, hw⟩ := exists_set? hp y
    rw [hw, Option.getD_some, put_of_set? hw]

theorem put_comm {p q : Path} (hd : p.Diverge q) (v x y : Value) :
    q.put (p.put v x) y = p.put (q.put v y) x := by
  cases hp : p.get? v with
  | none =>
    have hp' : p.get? (q.put v y) = none := by rw [get?_put_of_diverge hd.symm, hp]
    rw [put_of_get?_eq_none hp, put_of_get?_eq_none hp']
  | some c =>
    cases hq : q.get? v with
    | none =>
      have hq' : q.get? (p.put v x) = none := by rw [get?_put_of_diverge hd, hq]
      rw [put_of_get?_eq_none hq, put_of_get?_eq_none hq']
    | some d =>
      obtain ⟨v₁, h₁⟩ := exists_set? hp x
      obtain ⟨v₂, h₂⟩ := exists_set? hq y
      rw [put_of_set? h₁, put_of_set? h₂, put, put, set?_comm hd h₁ h₂]
      obtain ⟨w, hw⟩ := exists_set? (get?_of_set?_of_diverge hd.symm h₂ ▸ hp) x
      rw [hw, Option.getD_some, Option.getD_some]

/-- Putting back what is there changes nothing. -/
theorem put_of_get? {p : Path} {v c : Value} (h : p.get? v = some c) : p.put v c = v :=
  put_of_set? (set?_of_get? h)

/-- Nothing but putting back what is there leaves a document as it is. -/
theorem put_eq_self_iff {p : Path} {v c : Value} (h : p.get? v = some c) (w : Value) :
    p.put v w = v ↔ w = c := by
  constructor
  · intro hput
    have hread := get?_put h w
    rw [hput, h] at hread
    exact (Option.some.inj hread).symm
  · rintro rfl
    exact put_of_get? h

theorem put_join {p : Path} {v c : Value} (h : p.get? v = some c) (q : Path) (w : Value) :
    (p.join q).put v w = p.put v (q.put c w) := by
  rw [put, set?_join, h, Option.bind_some]
  cases hq : q.set? c w with
  | none =>
    have hc : q.put c w = c := by rw [put, hq, Option.getD_none]
    rw [hc, put_of_get? h, Option.bind_none, Option.getD_none]
  | some c' => rw [put_of_set? hq, Option.bind_some, put]

theorem put_atIndex {p : Path} {v : Value} {items : List Value} {n : Nat}
    (h : p.get? v = some (.array items)) (hn : n < items.length) (w : Value) :
    (p.atIndex n).put v w = p.put v (.array (items.set n w)) := by
  rw [put, put, set?_atIndex h hn]

/-- A joined path is seen along its first part as the second one inside the value there. -/
theorem get?_put_join (p q : Path) (v w : Value) :
    p.get? ((p.join q).put v w) = (p.get? v).map (q.put · w) := by
  cases h : p.get? v with
  | none =>
    have hjoin : (p.join q).get? v = none := by rw [get?_join, h, Option.bind_none]
    rw [put_of_get?_eq_none hjoin, h, Option.map_none]
  | some c => rw [put_join h, get?_put h, Option.map_some]

theorem put_cons {s : Step} {v c : Value} (h : v.child? s = some c) (p : Path) (w : Value) :
    put (s :: p) v w = v.withChild s (p.put c w) := by
  rw [put, put, set?_cons, h, Option.bind_some]
  cases p.set? c w with
  | none => rw [Option.map_none, Option.getD_none, Option.getD_none, Value.withChild_of_child? h]
  | some c' => rw [Option.map_some, Option.getD_some, Option.getD_some]

theorem atIndex_join (p : Path) (n : Nat) (q : Path) :
    (p.atIndex n).join q = p.join (.index n :: q) := List.append_assoc p [.index n] q

theorem Diverge.join {p q : Path} (h : p.Diverge q) (r : Path) : (p.join r).Diverge q := by
  induction h with
  | here hn => exact .here hn
  | later _ ih => exact .later ih

theorem Diverge.join_left {q r : Path} (h : q.Diverge r) (p : Path) :
    (p.join q).Diverge (p.join r) := by
  induction p with
  | nil => exact h
  | cons s p ih => exact .later ih

/-- The laws of one path in every document. -/
structure Lawful (p : Path) : Prop where
  /-- The slot that can be written holds what is read. -/
  slot : ∀ v, (p.slot? v).map (·.value) = p.get? v
  /-- A place is set exactly when there is something to read. -/
  present : ∀ v w, (p.set? v w).isSome = (p.get? v).isSome
  absent : ∀ v w, p.set? v w = none → p.put v w = v
  read : ∀ v w, (p.set? v w).isSome → p.get? (p.put v w) = some w
  apart : ∀ q, p.Diverge q → ∀ v w, q.get? (p.put v w) = q.get? v
  restore : ∀ v c, p.get? v = some c → p.set? v c = some v
  again : ∀ v x y, (p.set? v x).isSome → p.set? (p.put v x) y = p.set? v y
  get_join : ∀ q v, (p.join q).get? v = (p.get? v).bind q.get?
  /-- A longer path is set inside the value its first part reads, ... -/
  set_join : ∀ q v w,
    (p.join q).set? v w = (p.get? v).bind fun c => (q.set? c w).bind (p.set? v)
  /-- ... and nowhere else, neither outside that value nor beside its second part. -/
  join_apart : ∀ q v w,
    (∀ r, p.Diverge r → r.get? ((p.join q).put v w) = r.get? v) ∧
    ∀ r, q.Diverge r → (p.join r).get? ((p.join q).put v w) = (p.join r).get? v

/-- Every path is a lawful lens into every document. -/
theorem lawful (p : Path) : p.Lawful where
  slot := p.slot?_value
  present := p.isSome_set?
  absent v w h := by rw [put, h, Option.getD_none]
  read v w h := by
    obtain ⟨v', hv⟩ := Option.isSome_iff_exists.mp h
    rw [put_of_set? hv, get?_of_set? hv]
  apart q hd := get?_put_of_diverge hd
  restore v c := set?_of_get?
  again v x y h := by
    obtain ⟨v', hv⟩ := Option.isSome_iff_exists.mp h
    rw [put_of_set? hv, set?_of_set? hv]
  get_join q := get?_join p q
  set_join q := set?_join p q
  join_apart q v w :=
    ⟨fun _ hd => get?_put_of_diverge (hd.join q) v w,
      fun _ hd => get?_put_of_diverge (hd.join_left p) v w⟩

/-- An index and a name of the same numeral are one place in an object, and only the index is a
place in an array. -/
example :
    get? [.key "1"] (put [.index 1] (.object [("1", .null)]) (.bool true)) = some (.bool true) ∧
    get? [.key "1"] (put [.index 1] (.array [.null, .null]) (.bool true)) = none := ⟨rfl, rfl⟩

end Path

end CatalogAssembly
