import CatalogAssembly.Proofs.Outcome

/-!
# What a placement leaves alone

A value put at a place is seen there and, on the way to it, in nothing but the
values themselves: each object on the way keeps its names and each array its
length. Along every path that diverges from the place nothing is seen. A placement
that writes puts one value in one place, and any other one leaves the entity as it
is: `place_frame`.
-/
namespace CatalogAssembly

open Json (Value)

/-- An object with the names it had, or an array of the length it had. -/
inductive Json.Value.SameShape : Value → Value → Prop
  | object {fields fields' : List (String × Value)}
      (names : fields'.map (·.1) = fields.map (·.1)) :
      SameShape (.object fields) (.object fields')
  | array {items items' : List Value} (length : items'.length = items.length) :
      SameShape (.array items) (.array items')

/-- Two documents that differ in nothing but what is at one place. -/
structure Path.Frame (p : Path) (before after : Value) : Prop where
  apart : ∀ q : Path, p.Diverge q → q.get? after = q.get? before
  onTheWay : ∀ (q : Path) (s : Step) (r : Path), p = q.join (s :: r) →
    ∃ c c' : Value, q.get? before = some c ∧ q.get? after = some c' ∧ c.SameShape c'

theorem Json.Value.sameShape_withChild {v c : Value} {s : Step} (h : v.child? s = some c)
    (w : Value) : v.SameShape (v.withChild s w) := by
  cases v with
  | object fields => exact .object (names_replaceField s.name w fields)
  | array items =>
    cases s with
    | key name => cases h
    | index n => exact .array List.length_set
  | _ => cases h

namespace Path

theorem frame_put {p : Path} {v c : Value} (h : p.get? v = some c) (w : Value) :
    p.Frame v (p.put v w) where
  apart q hd := get?_put_of_diverge hd v w
  onTheWay q s r hp := by
    subst hp
    rw [get?_join, Option.bind_eq_some_iff] at h
    obtain ⟨d, hd, h⟩ := h
    rw [get?_cons, Option.bind_eq_some_iff] at h
    obtain ⟨e, he, -⟩ := h
    refine ⟨d, put (s :: r) d w, hd, ?_, ?_⟩
    · rw [get?_put_join, hd, Option.map_some]
    · rw [put_cons he]
      exact Value.sameShape_withChild he _

/-- An object is one still when something is put inside it. -/
theorem exists_fields_put (s : Step) (p : Path) (fields : List (String × Value)) (w : Value) :
    ∃ fields', put (s :: p) (.object fields) w = .object fields' := by
  cases h : (Value.object fields).child? s with
  | none =>
    have hread : get? (s :: p) (.object fields) = none := by rw [get?_cons, h, Option.bind_none]
    exact ⟨fields, put_of_get?_eq_none hread w⟩
  | some c => exact ⟨_, put_cons h p w⟩

/-- What is put away from the field `id` leaves a value its identifier. -/
theorem slotId?_put_of_diverge {p : Path} (hd : p.Diverge [.key "id"]) (v w : Value) :
    (p.put v w).slotId? = v.slotId? := by
  cases hread : p.get? v with
  | none => rw [put_of_get?_eq_none hread]
  | some c =>
    have hid : (p.put v w).field? "id" = v.field? "id" := by
      rw [← get?_key, ← get?_key, get?_put_of_diverge hd]
    obtain ⟨s, q, rfl⟩ : ∃ s q, p = s :: q := by cases hd <;> exact ⟨_, _, rfl⟩
    obtain ⟨_, _, hv, hv', hshape⟩ := (frame_put hread w).onTheWay [] s q rfl
    obtain rfl := Option.some.inj hv
    obtain rfl := Option.some.inj hv'
    generalize put (s :: q) v w = v' at *
    cases hshape with
    | object names => exact congrArg Value.present? hid
    | array length => rfl

/-- Below one element of a collection the others are not touched. -/
theorem get?_put_below {p : Path} {v : Value} {items : List Value} {i : Nat} {element : Value}
    (h : p.get? v = some (.array items)) (hi : items[i]? = some element) (q : Path) (w : Value) :
    p.get? ((p.join (.index i :: q)).put v w) = some (.array (items.set i (q.put element w))) := by
  have hchild : (Value.array items).child? (.index i) = some element := hi
  rw [get?_put_join, h, Option.map_some, put_cons hchild]
  rfl

end Path

/-- The entity once a fragment was tried. -/
def entityAfter (entity : Option Value) : Except AssemblyError Effect → Option Value
  | .ok effect => effect.entity entity
  | .error _ => entity

/-- A fragment was written at one place of an entity. -/
structure WrittenAt (mode : Mode) (adopter : Adopter) (f : Fragment) (entity : Value) (rule : Rule)
    (base path : Path) (adoption : Adoption) (matched : Bool) (entity' : Value) : Prop where
  starts : Starts f.payload entity rule base
  below : rule.path? = some path
  parent : base.get? entity = some adoption.parent
  substituted : ∃ current, (base.join path).get? entity = some current ∧
    substitute mode f (base.join path) current = .ok ⟨adoption.value, matched⟩
  read : (base.join path).get? entity' = some (adopter adoption.value adoption.parent)
  frame : (base.join path).Frame entity entity'
  /-- In the searched collection only the element that was found is another one. -/
  others : ∀ collection q m, rule = .indexed collection q m → ∃ items items' i,
    base = collection.atIndex i ∧ collection.get? entity = some (.array items) ∧
      collection.get? entity' = some (.array items') ∧ items'.length = items.length ∧
      ∀ j, j ≠ i → items'[j]? = items[j]?

theorem writtenAt_put {mode : Mode} {adopter : Adopter} {f : Fragment} {entity current : Value}
    {rule : Rule} {base path : Path} {adoption : Adoption} {matched : Bool}
    (starts : Starts f.payload entity rule base) (below : rule.path? = some path)
    (parent : base.get? entity = some adoption.parent)
    (hcurrent : (base.join path).get? entity = some current)
    (hs : substitute mode f (base.join path) current = .ok ⟨adoption.value, matched⟩) :
    WrittenAt mode adopter f entity rule base path adoption matched
      ((base.join path).put entity (adopter adoption.value adoption.parent)) where
  starts := starts
  below := below
  parent := parent
  substituted := ⟨current, hcurrent, hs⟩
  read := Path.get?_put hcurrent _
  frame := Path.frame_put hcurrent _
  others := by
    rintro collection q m rfl
    cases starts with
    | @indexed _ _ _ items i element hitems here accepted first =>
      refine ⟨items, items.set i (path.put element (adopter adoption.value adoption.parent)), i,
        rfl, hitems, ?_, List.length_set, ?_⟩
      · rw [Path.atIndex_join, Path.get?_put_below hitems here]
      · intro j hj
        exact List.getElem?_set_ne hj.symm

/-- A fragment changes one slot of an entity and nothing else, or it is skipped or fails
and the entity is as it was. -/
theorem place_frame (mode : Mode) (adopter : Adopter) (f : Fragment) (raw entity : Value)
    (rule : Rule) :
    (∃ (base path : Path) (adoption : Adoption) (matched : Bool) (entity' : Value),
      place mode adopter (some entity) rule f raw
        = .ok (.written (base.join path) adoption matched entity') ∧
      WrittenAt mode adopter f entity rule base path adoption matched entity') ∨
    (((∃ w, place mode adopter (some entity) rule f raw = .ok (.skipped w)) ∨
        ∃ e, place mode adopter (some entity) rule f raw = .error e) ∧
      entityAfter (some entity) (place mode adopter (some entity) rule f raw) = some entity) := by
  obtain ⟨r, h⟩ := @exists_outcome mode adopter f raw (some entity) rule
  rw [h.place_eq]
  cases h with
  | written starts hp h hc ht hset =>
    obtain ⟨hcurrent, hnull⟩ := Value.present?_eq_some.mp h
    refine .inl ⟨_, _, _, _, _, rfl, ?_⟩
    rw [← Path.put_of_set? hset]
    exact writtenAt_put starts hp ht hcurrent (substitute_of_not_clash hnull hc)
  | nothingWaits => exact .inr ⟨.inl ⟨_, rfl⟩, rfl⟩
  | _ => exact .inr ⟨.inr ⟨_, rfl⟩, rfl⟩

/-- Of two discs with the number of a note the first one takes it, in the form the adopter gives. -/
theorem place_frame_first_disc :
    let disc (number note : Int) := Value.object [("note", .ofInt note), ("number", .ofInt number)]
    let entity := Value.object [("discs", .array [disc 1 11, disc 2 12, disc 2 13])]
    let payload := Value.object [("disc", .ofInt 2), ("id", .ofInt 12)]
    let rule := Rule.indexed [.key "discs"] [.key "note"] (.fieldEquals "disc" "number")
    let adopter : Adopter := fun v _ => .array [v]
    let note : Path := [.key "discs", .index 1, .key "note"]
    ∃ entity', place .strict adopter (some entity) rule ⟨"discNote", payload⟩ .null
        = .ok (.written note ⟨payload, disc 2 12⟩ true entity') ∧
      note.get? entity' = some (.array [payload]) ∧
      Path.get? [.key "discs", .index 2] entity' = some (disc 2 13) := by
  intro disc entity payload rule adopter note
  have hplace : ∃ entity', place .strict adopter (some entity) rule ⟨"discNote", payload⟩ .null
      = .ok (.written note ⟨payload, disc 2 12⟩ true entity') := ⟨_, rfl⟩
  obtain ⟨entity', hplace⟩ := hplace
  obtain ⟨base, path, adoption, matched, other, h, hwritten⟩ | ⟨⟨w, h⟩ | ⟨e, h⟩, -⟩ :=
    place_frame .strict adopter ⟨"discNote", payload⟩ .null entity rule
  · have heq := hplace.symm.trans h
    simp only [Except.ok.injEq, Effect.written.injEq] at heq
    obtain ⟨hnote, rfl, rfl, rfl⟩ := heq
    have hd : note.Diverge [.key "discs", .index 2] := .later (.here (by decide))
    refine ⟨entity', hplace, hnote ▸ hwritten.read, ?_⟩
    exact (hwritten.frame.apart _ (hnote ▸ hd)).trans rfl
  · cases hplace.symm.trans h
  · cases hplace.symm.trans h

end CatalogAssembly
