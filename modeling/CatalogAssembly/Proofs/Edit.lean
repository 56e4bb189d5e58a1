import CatalogAssembly.Proofs.Lens
import CatalogAssembly.Proofs.Outcome
import CatalogAssembly.Proofs.Run

/-!
# Fragments as edits

When values are written as they are, a fragment that is no root touches nothing
but the value its rule enters the entity at. `Rule.edit` says what it makes of
that value, and a step is the edit made at the access path: `warned_step_of_access`.
Steps at paths that diverge are thereby independent of each other, and steps at
one path are compared on the value there.
-/
namespace CatalogAssembly

open Json (Value)

/-- What is made of a value: nothing, with a warning, or another one. -/
inductive Edit where
  | keep (warning : Warning)
  | replace (v : Value)

namespace Edit

def warnings : Edit → List Warning
  | .keep w => [w]
  | .replace _ => []

/-- The value there is after an edit. -/
def value (before : Option Value) : Edit → Option Value
  | .keep _ => before
  | .replace v => some v

/-- The entity after an edit at a path. -/
def apply (p : Path) (entity : Option Value) : Edit → Option Value
  | .keep _ => entity
  | .replace v => entity.map (p.put · v)

/-- An edit below an element as an edit of the collection. -/
def inElement (items : List Value) (i : Nat) (path : Path) : Edit → Edit
  | .keep w => .keep w
  | .replace v => .replace (.array (items.modify i (path.put · v)))

/-- An edit made first is seen nowhere but on its own path. -/
theorem get?_apply_of_diverge {p q : Path} (hd : p.Diverge q) (entity : Option Value)
    (edit : Edit) : (edit.apply p entity).bind q.get? = entity.bind q.get? := by
  cases edit with
  | keep w => rfl
  | replace v =>
    cases entity with
    | none => rfl
    | some entity => exact Path.get?_put_of_diverge hd entity v

theorem apply_comm {p q : Path} (hd : p.Diverge q) (entity : Option Value) (x y : Edit) :
    y.apply q (x.apply p entity) = x.apply p (y.apply q entity) := by
  cases x with
  | keep w => rfl
  | replace v =>
    cases y with
    | keep w => rfl
    | replace w =>
      cases entity with
      | none => rfl
      | some entity => exact congrArg some (Path.put_comm hd entity v w)

end Edit

/-- What a fragment makes of the slot it is for, which the rule reads along `path`. -/
def slotEdit (mode : Mode) (f : Fragment) (raw : Value) (place path : Path) (slot : Option Value) :
    Except AssemblyError Edit :=
  match Value.present? slot with
  | none => .ok (.keep (.noIdentifier path raw))
  | some current =>
    match substitute mode f place current with
    | .error e => .error e
    | .ok s => .ok (.replace s.value)

/-- What a fragment makes of the value its rule enters the entity at. -/
def Rule.edit (mode : Mode) (f : Fragment) (raw : Value) (rule : Rule) (here : Option Value) :
    Except AssemblyError Edit :=
  match rule with
  | .root => .error (.duplicateRoot f.key)
  | .direct path => slotEdit mode f raw path path here
  | .indexed parent path m =>
    match Value.present? here with
    | none => .error (.parentNotFound parent)
    | some (.array items) =>
      match items.findIdx? (m.accepts f.payload) with
      | none => .error (.matchNotFound parent)
      | some i =>
        (slotEdit mode f raw ((parent.atIndex i).join path) path (items[i]?.bind path.get?)).map
          (·.inElement items i path)
    | some _ => .error (.expectedCollection parent)

section Step

variable {mode : Mode} {f : Fragment} {raw : Value}

/-- An edit seen as a step of the run. -/
def edited (p : Path) (entity : Option Value) :
    Except AssemblyError Edit → Noted Warning AssemblyError (Option Value)
  | .error e => .fail e
  | .ok edit => ⟨edit.warnings, .ok (edit.apply p entity)⟩

theorem stepped_fill {entity target : Value} {base path : Path}
    (ht : base.get? entity = some target) :
    stepped (some entity) (fill mode .passThrough entity ⟨base, target⟩ path f raw)
      = edited (base.join path) (some entity)
          (slotEdit mode f raw (base.join path) path (path.get? target)) := by
  simp only [fill, slotEdit]
  cases h : Value.present? (path.get? target) with
  | none => rfl
  | some current =>
    cases hs : substitute mode f (base.join path) current with
    | error e => simp [bind, Except.bind, hs, stepped, edited]
    | ok s =>
      have hread : (base.join path).get? entity = some current := by
        rw [Path.get?_join, ht, Option.bind_some]
        exact (Value.present?_eq_some.mp h).1
      obtain ⟨entity', hset⟩ := Path.exists_set? hread s.value
      simp [bind, Except.bind, hs, Adopter.passThrough, hset, stepped, edited, Edit.apply,
        Path.put_of_set? hset, Effect.entity, Effect.warnings, Edit.warnings]

/-- An edit below an element is an edit of the collection. -/
theorem edited_inElement {entity : Value} {items : List Value} {parent : Path} {i : Nat}
    (h : parent.get? entity = some (.array items)) (hi : i < items.length) (path : Path)
    (r : Except AssemblyError Edit) :
    edited ((parent.atIndex i).join path) (some entity) r
      = edited parent (some entity) (r.map (·.inElement items i path)) := by
  cases r with
  | error e => rfl
  | ok edit =>
    cases edit with
    | keep w => rfl
    | replace v =>
      have helement : (parent.atIndex i).get? entity = some items[i] := by
        rw [Path.get?_atIndex, h]
        exact List.getElem?_eq_getElem hi
      have hmodify : items.set i (path.put items[i] v) = items.modify i (path.put · v) := by
        rw [List.modify_eq_set, List.getElem?_eq_getElem hi, Option.getD_some]
      have hput : ((parent.atIndex i).join path).put entity v
          = parent.put entity (.array (items.modify i (path.put · v))) := by
        rw [Path.put_join helement, Path.put_atIndex h hi, hmodify]
      simp only [edited, Except.map, Edit.inElement, Edit.apply, Edit.warnings, Option.map_some,
        hput]

theorem stepped_place {rule : Rule} {p : Path} (hp : rule.access? = some p)
    (entity : Option Value) :
    stepped entity (place mode .passThrough entity rule f raw)
      = edited p entity (rule.edit mode f raw (entity.bind p.get?)) := by
  cases entity with
  | none =>
    cases rule with
    | root => cases hp
    | direct path => rfl
    | indexed parent path m => rfl
  | some entity =>
    cases rule with
    | root => cases hp
    | direct path =>
      cases hp
      exact stepped_fill rfl
    | indexed parent path m =>
      obtain rfl : parent = p := Option.some.inj hp
      simp only [place, locate, Rule.edit, Option.bind_some]
      cases h : Value.present? (parent.get? entity) with
      | none => rfl
      | some v =>
        obtain ⟨h, -⟩ := Value.present?_eq_some.mp h
        cases v with
        | array items =>
          simp only [List.findIdx?_eq_map_findFinIdx?_val]
          cases items.findFinIdx? (m.accepts f.payload) with
          | none => rfl
          | some i =>
            have hbase : (parent.atIndex i).get? entity = some items[i] := by
              rw [Path.get?_atIndex, h]
              exact List.getElem?_eq_getElem i.isLt
            refine (stepped_fill hbase).trans ?_
            rw [edited_inElement h i.isLt, Option.map_some]
            simp only [List.getElem?_eq_getElem i.isLt, Option.bind_some, Fin.getElem_fin]
        | _ => rfl

/-- A step is the edit of its rule made at the access path. -/
theorem warned_step_of_access {a : Assembler} (ha : a.adopter = .passThrough) (kind : EntityKind)
    (d : Descriptor) {rule : Rule} {p : Path} (hf : Fragment.parse raw = .ok f)
    (hrule : d.rule? f.key = some rule) (hp : rule.access? = some p) (position : Nat)
    (entity : Option Value) :
    (a.step kind d position entity raw).warned
      = edited p entity (rule.edit a.mode f raw (entity.bind p.get?)) := by
  rw [a.warned_step_of_rule kind d hf hrule, ha, stepped_place hp]

theorem step_eq_ok {a : Assembler} (ha : a.adopter = .passThrough) (kind : EntityKind)
    (d : Descriptor) {rule : Rule} {p : Path} (hf : Fragment.parse raw = .ok f)
    (hrule : d.rule? f.key = some rule) (hp : rule.access? = some p) {position : Nat}
    {s t : Option Value} :
    (a.step kind d position s raw).result = .ok t ↔
      ∃ edit, rule.edit a.mode f raw (s.bind p.get?) = .ok edit ∧ edit.apply p s = t := by
  have h := congrArg Noted.result (warned_step_of_access ha kind d hf hrule hp position s)
  change (a.step kind d position s raw).result = _ at h
  rw [h]
  cases rule.edit a.mode f raw (s.bind p.get?) with
  | error e => simp [edited, Noted.fail]
  | ok edit => simp [edited]

/-- A slot is left alone where nothing waits, and filled where nothing clashes. -/
theorem slotEdit_eq_ok {place path : Path} {slot : Option Value} {edit : Edit} :
    slotEdit mode f raw place path slot = .ok edit ↔
      (Value.present? slot = none ∧ edit = .keep (.noIdentifier path raw)) ∨
        ∃ current, Value.present? slot = some current ∧ (∀ e, ¬ Clash mode f place current e) ∧
          edit = .replace (filled f current) := by
  rw [slotEdit]
  cases h : Value.present? slot with
  | none => simp [eq_comm]
  | some current =>
    by_cases hc : ∃ e, Clash mode f place current e
    · obtain ⟨e, hc⟩ := hc
      simpa [substitute_of_clash hc] using fun h : ∀ e, ¬ _ => absurd hc (h e)
    · have hc := not_exists.mp hc
      simp [substitute_of_not_clash (Value.present?_eq_some.mp h).2 hc, hc, eq_comm]

/-- Where nothing is, nothing is put. -/
theorem edit_none {rule : Rule} {edit : Edit} (h : rule.edit mode f raw none = .ok edit) :
    ∃ w, edit = .keep w := by
  cases rule with
  | root => cases h
  | direct path =>
    cases h
    exact ⟨_, rfl⟩
  | indexed parent path m => cases h

/-- What an edit made of the value is read at its path afterwards. -/
theorem get?_apply_edit {rule : Rule} {p : Path} {entity : Option Value} {edit : Edit}
    (h : rule.edit mode f raw (entity.bind p.get?) = .ok edit) :
    (edit.apply p entity).bind p.get? = edit.value (entity.bind p.get?) := by
  cases edit with
  | keep w => rfl
  | replace v =>
    cases hread : entity.bind p.get? with
    | none =>
      rw [hread] at h
      obtain ⟨w, hw⟩ := edit_none h
      cases hw
    | some c =>
      obtain ⟨entity, rfl, hc⟩ := Option.bind_eq_some_iff.mp hread
      exact Path.get?_put hc v

/-- The ways in which a step can succeed when values are written as they are. -/
theorem step_ok_cases {a : Assembler} (ha : a.adopter = .passThrough) {kind : EntityKind}
    {d : Descriptor} {position : Nat} {s t : Option Value}
    (h : (a.step kind d position s raw).result = .ok t) :
    ∃ f, Fragment.parse raw = .ok f ∧ ((d.rule? f.key = none ∧ t = s) ∨
      (d.rule? f.key = some .root ∧ s = none ∧ t = some f.payload) ∨
      ∃ rule p edit, d.rule? f.key = some rule ∧ rule.access? = some p ∧
        rule.edit a.mode f raw (s.bind p.get?) = .ok edit ∧ t = edit.apply p s) := by
  obtain ⟨f, hf, ⟨hnone, rfl⟩ | ⟨rule, effect, hrule, hplace, rfl⟩⟩ := a.step_ok h
  · exact ⟨f, hf, .inl ⟨hnone, rfl⟩⟩
  · refine ⟨f, hf, .inr ?_⟩
    cases hp : rule.access? with
    | none =>
      cases rule with
      | root =>
        cases s with
        | none =>
          cases hplace
          exact .inl ⟨hrule, rfl, rfl⟩
        | some entity => cases hplace
      | direct path => cases hp
      | indexed parent path m => cases hp
    | some p =>
      obtain ⟨edit, hedit, happly⟩ := (step_eq_ok ha kind d hf hrule hp).mp h
      exact .inr ⟨rule, p, edit, hrule, hp, hedit, happly.symm⟩

end Step

end CatalogAssembly
