import CatalogAssembly.Proofs.Edit

/-!
# One slot over a whole run

What a slot holds at the end of a run is read off what the root had there and the
payloads for it, in order: `Settled`. A collection keeps its length, and each of
its elements is the last payload it waited for; this rests on a payload matching
what the placeholder it replaced has matched. A slot with a bare identifier takes
one payload, and a resolved one takes none.
-/
namespace CatalogAssembly

open Json (Value)

/-- The payloads of the fragments with a key, in order. -/
def payloads (key : String) (fragments : List Value) : List Value :=
  fragments.filterMap fun raw =>
    match Fragment.parse raw with
    | .ok f => if f.key = key then some f.payload else none
    | .error _ => none

/-- The last payload that an element waited for. -/
def lastFor (payloads : List Value) (element : Value) : Option Value :=
  payloads.reverse.find? fun payload => matchingIds element.slotId? payload.payloadId?

/-- What a slot holds after some payloads for it, given what it held before. -/
inductive Settled : Option Value → List Value → Option Value → Prop
  | absent (ds : List Value) : Settled none ds none
  | null (ds : List Value) : Settled (some .null) ds (some .null)
  | collection (items ds : List Value) :
      Settled (some (.array items)) ds
        (some (.array (items.map fun element => (lastFor ds element).getD element)))
  | resolved (fields : List (String × Value)) :
      Settled (some (.object fields)) [] (some (.object fields))
  | waiting {v : Value} (scalar : v.isScalar = true) : Settled (some v) [] (some v)
  | filled {v id payload : Value} (scalar : v.isScalar = true)
      (hid : payload.payloadId? = some id) (same : sameId v id = true) :
      Settled (some v) [payload] (some payload)

/-- Every other rule enters the entity away from a path. -/
def Descriptor.Apart (d : Descriptor) (key : String) (p : Path) : Prop :=
  ∀ other rule q, other ≠ key → d.rule? other = some rule → rule.access? = some q → q.Diverge p

theorem apart_primaryArtists :
    (⟨Registry.albumReleaseRules⟩ : Descriptor).Apart "artist" [.key "primaryArtists"] := by
  intro other rule q hne hrule hq
  have hmem := Descriptor.mem_of_rule? hrule
  simp only [Registry.albumReleaseRules, List.mem_cons, Prod.mk.injEq, List.not_mem_nil,
    or_false] at hmem
  rcases hmem with ⟨-, rfl⟩ | ⟨-, rfl⟩ | ⟨-, rfl⟩ | ⟨h, -⟩ | ⟨-, rfl⟩ | ⟨-, rfl⟩
  · cases hq
  · cases hq
    exact .here (by decide)
  · cases hq
    exact .here (by decide)
  · exact absurd h hne
  · cases hq
    exact .here (by decide)
  · cases hq
    exact .here (by decide)

section Payloads

variable {key : String} {f : Fragment} {raw : Value} {rest : List Value}

theorem payloads_cons_of_key (hf : Fragment.parse raw = .ok f) (hkey : f.key = key) :
    payloads key (raw :: rest) = f.payload :: payloads key rest := by
  simp [payloads, hf, hkey]

theorem payloads_cons_of_ne (hf : Fragment.parse raw = .ok f) (hkey : f.key ≠ key) :
    payloads key (raw :: rest) = payloads key rest := by
  simp [payloads, hf, hkey]

end Payloads

theorem lastFor_cons (payload : Value) (ds : List Value) (element : Value) :
    lastFor (payload :: ds) element
      = (lastFor ds element).or
          (if matchingIds element.slotId? payload.payloadId? then some payload else none) := by
  rw [lastFor, List.reverse_cons, List.find?_append, List.find?_singleton]
  rfl

/-- Filling an element first does not change what it waits for later. -/
theorem lastFor_fillElement (f : Fragment) (ds : List Value) (element : Value) :
    (lastFor ds (fillElement f element)).getD (fillElement f element)
      = (lastFor (f.payload :: ds) element).getD element := by
  rw [lastFor_cons, fillElement]
  by_cases hm : matchingIds element.slotId? f.id? = true
  · have hlast : lastFor ds f.payload = lastFor ds element := by
      simp only [lastFor, Value.matchingIds_slotId? hm]
    rw [if_pos hm, hlast]
    cases lastFor ds element <;> simp [show matchingIds _ f.payload.payloadId? = true from hm]
  · rw [if_neg hm]
    cases lastFor ds element <;> simp [show ¬ matchingIds _ f.payload.payloadId? = true from hm]

namespace Settled

theorem refl (v : Option Value) : Settled v [] v := by
  cases v with
  | none => exact .absent []
  | some v =>
    cases v with
    | null => exact .null []
    | array items => simpa [lastFor] using collection items []
    | object fields => exact .resolved fields
    | bool | number | string => exact .waiting rfl

theorem of_object {fields : List (String × Value)} {ds : List Value} {after : Option Value}
    (h : Settled (some (.object fields)) ds after) : ds = [] ∧ after = some (.object fields) := by
  cases h with
  | resolved => exact ⟨rfl, rfl⟩
  | waiting scalar => cases scalar
  | filled scalar => cases scalar

/-- A bare identifier is replaced by a payload with this identifier, and then no other one. -/
theorem cons_of_isScalar {mode : Mode} {f : Fragment} {place : Path} {v : Value} {ds : List Value}
    {after : Option Value} (scalar : v.isScalar = true) (hclash : ∀ e, ¬ Clash mode f place v e)
    (h : Settled (some (CatalogAssembly.filled f v)) ds after) :
    Settled (some v) (f.payload :: ds) after := by
  obtain ⟨_, id, hv, hid, same⟩ := matchingIds_iff.mp (matchingIds_of_not_clash scalar hclash)
  obtain rfl := Option.some.inj hv
  obtain ⟨fields, hfields⟩ := Value.exists_fields_of_payloadId? hid
  rw [filled_of_isScalar scalar, hfields] at h
  obtain ⟨rfl, rfl⟩ := of_object h
  rw [← hfields]
  exact .filled scalar hid same

/-- A slot that settles after an edit settles so after the payload of the edit as well. -/
theorem cons {mode : Mode} {f : Fragment} {raw : Value} {place path : Path} {v after : Option Value}
    {ds : List Value} {edit : Edit} (hedit : slotEdit mode f raw place path v = .ok edit)
    (h : Settled (edit.value v) ds after) : Settled v (f.payload :: ds) after := by
  obtain ⟨hnone, rfl⟩ | ⟨current, hcurrent, hclash, rfl⟩ := slotEdit_eq_ok.mp hedit
  · rcases Value.present?_eq_none.mp hnone with rfl | rfl
    · cases h
      exact .absent _
    · cases h with
      | null => exact .null _
      | waiting scalar => cases scalar
      | filled scalar => cases scalar
  · obtain ⟨rfl, hnull⟩ := Value.present?_eq_some.mp hcurrent
    by_cases harray : ∃ items, current = .array items
    · obtain ⟨items, rfl⟩ := harray
      cases h with
      | collection =>
        simpa [List.map_map, Function.comp_def, lastFor_fillElement] using
          collection items (f.payload :: ds)
      | waiting scalar => cases scalar
      | filled scalar => cases scalar
    · have scalar := isScalar_of_not_clash hnull (not_exists.mp harray) hclash
      exact cons_of_isScalar scalar hclash h

end Settled

section Run

variable {a : Assembler} {kind : EntityKind} {d : Descriptor} {key : String} {p : Path}

/-- What a step does to the slot of a direct rule that all others diverge from. -/
theorem step_settles (ha : a.adopter = .passThrough) (hkey : d.rule? key = some (.direct p))
    (hapart : d.Apart key p) {position : Nat} {entity raw : Value} {t : Option Value}
    (h : (a.step kind d position (some entity) raw).result = .ok t) :
    ∃ entity', t = some entity' ∧ ∀ rest after,
      Settled (p.get? entity') (payloads key rest) after →
        Settled (p.get? entity) (payloads key (raw :: rest)) after := by
  obtain ⟨f, hf, ⟨hnone, rfl⟩ | ⟨-, hs, -⟩ | ⟨rule, q, edit, hrule, hq, hedit, rfl⟩⟩ :=
    step_ok_cases ha h
  · have hne : f.key ≠ key := fun he => by rw [he, hkey] at hnone; cases hnone
    refine ⟨entity, rfl, fun rest after hafter => ?_⟩
    rwa [payloads_cons_of_ne hf hne]
  · cases hs
  · obtain ⟨⟨entity', ht⟩, -⟩ := a.step_of_begun h
    refine ⟨entity', ht, fun rest after hafter => ?_⟩
    by_cases he : f.key = key
    · subst he
      obtain rfl : Rule.direct p = rule := Option.some.inj (hkey.symm.trans hrule)
      obtain rfl : p = q := Option.some.inj hq
      have hread := get?_apply_edit hedit
      rw [ht, Option.bind_some, Option.bind_some] at hread
      rw [payloads_cons_of_key hf rfl]
      exact Settled.cons hedit (hread ▸ hafter)
    · have hread := Edit.get?_apply_of_diverge (hapart _ _ _ he hrule hq) (some entity) edit
      rw [ht, Option.bind_some, Option.bind_some] at hread
      rwa [payloads_cons_of_ne hf he, ← hread]

theorem run_settles (ha : a.adopter = .passThrough) (hkey : d.rule? key = some (.direct p))
    (hapart : d.Apart key p) {position : Nat} {entity entity' : Value} {fragments : List Value}
    (h : (a.run kind d position (some entity) fragments).result = .ok (some entity')) :
    Settled (p.get? entity) (payloads key fragments) (p.get? entity') := by
  induction fragments generalizing position entity with
  | nil =>
    cases h
    exact Settled.refl _
  | cons raw rest ih =>
    obtain ⟨s, hs, h⟩ := (Assembler.run_cons_ok a).mp h
    obtain ⟨entity₁, rfl, hstep⟩ := step_settles ha hkey hapart hs
    exact hstep rest _ (ih h)

/-- The slot of a direct rule that all others keep away from holds what the root
had there and the payloads after the root make of it. -/
theorem assemble_settles (ha : a.adopter = .passThrough)
    (hd : a.registry.descriptor? kind = some d) (hkey : d.rule? key = some (.direct p))
    (hapart : d.Apart key p) {fragments : List Value} {entity : Value}
    (h : (a.assemble kind fragments).result = .ok (some entity)) :
    ∃ before root after payload, fragments = before ++ root :: after ∧ d.Roots root payload ∧
      (∀ raw ∈ before ++ after, ∀ payload', ¬ d.Roots raw payload') ∧
      Settled (p.get? payload) (payloads key after) (p.get? entity) := by
  obtain ⟨before, root, after, payload, n, hsplit, hroot, hothers, hrun⟩ :=
    a.exists_root_of_run (a.run_of_assemble hd h)
  exact ⟨before, root, after, payload, hsplit, hroot, hothers, run_settles ha hkey hapart hrun⟩

end Run

/-- Of two payloads for one artist the last one counts, and `6.0` is the artist `6`. -/
theorem assemble_settles_artists :
    let release := Value.object [("id", .ofInt 1), ("primaryArtists", .array [.ofInt 5, .ofInt 6])]
    let first := Value.object [("id", .ofInt 6), ("name", .string "first")]
    let last := Value.object [("id", .number (.real (.ofInt 6))), ("name", .string "last")]
    let fragments := [.object [("artist", first)], .object [("albumRelease", release)],
      .object [("artist", first)], .object [("artist", last)]]
    let entity := Value.object [("id", .ofInt 1), ("primaryArtists", .array [.ofInt 5, last])]
    (Assembler.assemble ⟨.builtin, .strict, .passThrough⟩ .albumRelease fragments).result
        = .ok (some entity) ∧
      ∃ before root after payload, fragments = before ++ root :: after ∧
        Descriptor.Roots ⟨Registry.albumReleaseRules⟩ root payload ∧
        (∀ raw ∈ before ++ after, ∀ payload',
          ¬ Descriptor.Roots ⟨Registry.albumReleaseRules⟩ raw payload') ∧
        Settled (Path.get? [.key "primaryArtists"] payload) (payloads "artist" after)
          (Path.get? [.key "primaryArtists"] entity) := by
  intro release first last fragments entity
  have h : (Assembler.assemble ⟨.builtin, .strict, .passThrough⟩ .albumRelease fragments).result
      = .ok (some entity) := rfl
  exact ⟨h, assemble_settles rfl rfl rfl apart_primaryArtists h⟩

end CatalogAssembly
