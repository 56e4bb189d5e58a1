import CatalogAssembly.Proofs.Frame

/-!
# Collections in which nothing waits

In lenient mode a collection in which nothing waits for a payload is substituted by
itself, without a warning. It is written all the same, in the form the adopter gives it.
So the entity stays as it is exactly when the adopter hands the collection back, and
otherwise it has what the adopter made of the collection in this one place:
`step_unmatched`. An adopter that wraps what it is given leaves the collection wrapped.
-/
namespace CatalogAssembly

open Json (Value)

/-- The place a fragment is for holds a collection, and nothing in it waits for the payload. -/
structure Unmatched (f : Fragment) (entity : Value) (rule : Rule) (base path : Path)
    (items : List Value) : Prop where
  starts : Starts f.payload entity rule base
  below : rule.path? = some path
  collection : (base.join path).get? entity = some (.array items)
  idle : ∀ element ∈ items, matchingIds element.slotId? f.id? = false

namespace Unmatched

variable {f : Fragment} {entity : Value} {rule : Rule} {base path : Path} {items : List Value}

theorem waits_eq_false (h : Unmatched f entity rule base path items) :
    waits f (.array items) = false := by
  rw [waits, List.any_eq_false]
  intro element helement
  rw [h.idle element helement]
  exact Bool.false_ne_true

theorem filled_eq (h : Unmatched f entity rule base path items) :
    filled f (.array items) = .array items := by
  rw [filled, fillElement_of_not_waits h.waits_eq_false]

/-- A payload for a collection is refused in strict mode only. -/
theorem not_clash (e : AssemblyError) : ¬ Clash .lenient f (base.join path) (.array items) e := by
  intro hc
  cases hc with
  | unmatched strict => cases strict
  | other scalar => cases scalar

/-- The collection is given to the adopter and written in the form it comes back in. -/
theorem place_eq (h : Unmatched f entity rule base path items) {target : Value}
    (ht : base.get? entity = some target) (adopter : Adopter) (raw : Value) :
    place .lenient adopter (some entity) rule f raw
      = .ok (.written (base.join path) ⟨.array items, target⟩ false
          ((base.join path).put entity (adopter (.array items) target))) := by
  obtain ⟨entity', hset⟩ := Path.exists_set? h.collection (adopter (.array items) target)
  have hpresent : Value.present? ((base.join path).get? entity) = some (.array items) := by
    rw [h.collection]
    rfl
  have hset' : (base.join path).set? entity (adopter (filled f (.array items)) target)
      = some entity' := by
    rw [h.filled_eq]
    exact hset
  have houtcome : Outcome .lenient adopter f raw (some entity) rule _ :=
    .written h.starts h.below hpresent not_clash ht hset'
  rw [houtcome.place_eq, h.filled_eq, h.waits_eq_false, Path.put_of_set? hset]

end Unmatched

/-- In lenient mode a fragment for a collection in which nothing waits succeeds without a warning,
and what the adopter makes of the collection takes its place. The entity is as it was exactly when
the adopter hands the collection back; outside of the place it is so in any case. -/
theorem step_unmatched {a : Assembler} (hmode : a.mode = .lenient) (kind : EntityKind)
    {d : Descriptor} (position : Nat) {entity raw : Value} {f : Fragment} {rule : Rule}
    {base path : Path} {items : List Value} (hf : Fragment.parse raw = .ok f)
    (hrule : d.rule? f.key = some rule) (h : Unmatched f entity rule base path items) :
    ∃ target entity', base.get? entity = some target ∧
      (a.step kind d position (some entity) raw).result = .ok (some entity') ∧
      (a.step kind d position (some entity) raw).warnings = [] ∧
      (a.step kind d position (some entity) raw).adoptions = [⟨.array items, target⟩] ∧
      (base.join path).get? entity' = some (a.adopter (.array items) target) ∧
      (base.join path).Frame entity entity' ∧
      (entity' = entity ↔ a.adopter (.array items) target = .array items) := by
  obtain ⟨target, ht⟩ := h.starts.exists_target
  have hplace := h.place_eq ht a.adopter raw
  rw [← hmode] at hplace
  have hstep : a.step kind d position (some entity) raw
      = ⟨[.placing kind f.key position, .unmatched (base.join path) f.key,
          .adopted ⟨.array items, target⟩],
        .ok (some ((base.join path).put entity (a.adopter (.array items) target)))⟩ := by
    simp only [Assembler.step, hf, hrule, hplace]
    rfl
  rw [hstep]
  exact ⟨target, _, ht, rfl, rfl, rfl, Path.get?_put h.collection _,
    Path.frame_put h.collection _, Path.put_eq_self_iff h.collection _⟩

/-- An artist that no artist of the release waits for, with an adopter that keeps collections. -/
theorem step_unmatched_strange_artist :
    let keep : Adopter := fun v _ => match v with
      | .array items => .array items
      | v => .array [v]
    let a : Assembler := ⟨.builtin, .lenient, keep⟩
    let release := Value.object [("primaryArtists", .array [.ofInt 5, .null])]
    let artist := Value.object [("artist", .object [("id", .ofInt 9)])]
    (a.step .albumRelease ⟨Registry.albumReleaseRules⟩ 1 (some release) artist).result
        = .ok (some release) ∧
      (a.step .albumRelease ⟨Registry.albumReleaseRules⟩ 1 (some release) artist).warnings = [] := by
  intro keep a release artist
  have hidle : ∀ element ∈ [Value.ofInt 5, .null],
      matchingIds element.slotId? (some (.ofInt 9)) = false := by decide
  have h : Unmatched ⟨"artist", .object [("id", .ofInt 9)]⟩ release
      (.direct [.key "primaryArtists"]) [] [.key "primaryArtists"] [.ofInt 5, .null] :=
    ⟨.direct, rfl, rfl, hidle⟩
  obtain ⟨target, entity', ht, hresult, hwarnings, -, -, -, hkept⟩ :=
    @step_unmatched a rfl .albumRelease ⟨Registry.albumReleaseRules⟩ 1 release artist _ _ _ _ _ rfl
      rfl h
  rw [hkept.mpr rfl] at hresult
  exact ⟨hresult, hwarnings⟩

/-- The artists of a release are not left alone by an adopter that wraps what it is given, though
nothing waits for the artist that comes. -/
theorem unmatched_artists_wrapped :
    let wrap : Adopter := fun v _ => .object [("adopted", v)]
    let a : Assembler := ⟨.builtin, .lenient, wrap⟩
    let release := Value.object [("id", .ofInt 1), ("primaryArtists", .array [.ofInt 5])]
    let root := Value.object [("albumRelease", release)]
    let artist := Value.object [("artist", .object [("id", .ofInt 9)])]
    matchingIds (Value.ofInt 5).slotId? (some (.ofInt 9)) = false ∧
      (a.assemble .albumRelease [root]).result = .ok (some release) ∧
      (a.assemble .albumRelease [root, artist]).result
        = .ok (some (.object [("id", .ofInt 1),
            ("primaryArtists", .object [("adopted", .array [.ofInt 5])])])) ∧
      (a.assemble .albumRelease [root, artist]).result ≠ .ok (some release) := by
  intro wrap a release root artist
  have hwrapped : (a.assemble .albumRelease [root, artist]).result
      = .ok (some (.object [("id", .ofInt 1),
          ("primaryArtists", .object [("adopted", .array [.ofInt 5])])])) := rfl
  refine ⟨by decide, rfl, hwrapped, fun h => ?_⟩
  have hsame := Option.some.inj (Except.ok.inj (hwrapped.symm.trans h))
  simp [release] at hsame

end CatalogAssembly
