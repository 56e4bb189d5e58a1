import CatalogAssembly.Assembly.Run
import CatalogAssembly.Proofs.Identity
import CatalogAssembly.Proofs.Lens

/-!
# What becomes of a fragment

`Outcome` says what the tree calls for when a fragment meets its rule, read off
the entity along one path: the place the rule means. Every fragment has exactly
one outcome, and `place` gives it. In particular a place that was read is there
when it is written, so that a fragment whose place was found cannot fail for the
want of a parent.
-/
namespace CatalogAssembly

open Json (Value)

/-- The path of a rule below the place it starts at. -/
def Rule.path? : Rule → Option Path
  | .root => none
  | .direct path => some path
  | .indexed _ path _ => some path

/-- Where the path of a rule starts: at the entity itself for a direct rule, at the
first element of the parent collection that the matcher accepts for an indexed one. -/
inductive Starts (payload entity : Value) : Rule → Path → Prop
  | direct {path : Path} : Starts payload entity (.direct path) []
  | indexed {parent path : Path} {m : Matcher} {items : List Value} {i : Nat} {element : Value}
      (collection : parent.get? entity = some (.array items)) (here : items[i]? = some element)
      (accepted : m.accepts payload element = true)
      (first : ∀ j < i, ∀ other, items[j]? = some other → m.accepts payload other = false) :
      Starts payload entity (.indexed parent path m) (parent.atIndex i)

/-- Why a payload cannot take the place of what is there. -/
inductive Clash (mode : Mode) (f : Fragment) (place : Path) : Value → AssemblyError → Prop
  | unmatched {items : List Value} (strict : mode = .strict)
      (h : ∀ element ∈ items, matchingIds element.slotId? f.id? = false) :
      Clash mode f place (.array items) (.placeholderNotFound place (f.id?.getD .null))
  | resolved (fields : List (String × Value)) :
      Clash mode f place (.object fields) (.identityMismatch (.object fields) (f.id?.getD .null))
  | other {v : Value} (scalar : v.isScalar = true) (h : matchingIds (some v) f.id? = false) :
      Clash mode f place v (.identityMismatch v (f.id?.getD .null))

/-- What a place holds once a payload was put there. -/
def filled (f : Fragment) : Value → Value
  | .array items => .array (items.map (fillElement f))
  | _ => f.payload

/-- Whether something in a place waits for a payload. -/
def waits (f : Fragment) : Value → Bool
  | .array items => items.any fun element => matchingIds element.slotId? f.id?
  | v => matchingIds v.slotId? f.id?

/-- The one thing a fragment with a rule comes to, given the entity so far. -/
inductive Outcome (mode : Mode) (adopter : Adopter) (f : Fragment) (raw : Value) :
    Option Value → Rule → Except AssemblyError Effect → Prop
  | begun : Outcome mode adopter f raw none .root (.ok (.begun f.payload))
  | rootAgain (entity : Value) :
      Outcome mode adopter f raw (some entity) .root (.error (.duplicateRoot f.key))
  | notBegun (path : Path) :
      Outcome mode adopter f raw none (.direct path) (.ok (.skipped (.noIdentifier path raw)))
  | noParent {entity : Option Value} {parent path : Path} {m : Matcher}
      (h : Value.present? (entity.bind parent.get?) = none) :
      Outcome mode adopter f raw entity (.indexed parent path m) (.error (.parentNotFound parent))
  | noCollection {entity v : Value} {parent path : Path} {m : Matcher}
      (h : parent.get? entity = some v) (hnull : v ≠ .null) (harray : ∀ items, v ≠ .array items) :
      Outcome mode adopter f raw (some entity) (.indexed parent path m)
        (.error (.expectedCollection parent))
  | noMatch {entity : Value} {items : List Value} {parent path : Path} {m : Matcher}
      (h : parent.get? entity = some (.array items))
      (hm : ∀ element ∈ items, m.accepts f.payload element = false) :
      Outcome mode adopter f raw (some entity) (.indexed parent path m)
        (.error (.matchNotFound parent))
  | nothingWaits {entity : Value} {rule : Rule} {base path : Path}
      (starts : Starts f.payload entity rule base) (hp : rule.path? = some path)
      (h : Value.present? ((base.join path).get? entity) = none) :
      Outcome mode adopter f raw (some entity) rule (.ok (.skipped (.noIdentifier path raw)))
  | clash {entity current : Value} {rule : Rule} {base path : Path} {e : AssemblyError}
      (starts : Starts f.payload entity rule base) (hp : rule.path? = some path)
      (h : Value.present? ((base.join path).get? entity) = some current)
      (hc : Clash mode f (base.join path) current e) :
      Outcome mode adopter f raw (some entity) rule (.error e)
  | written {entity current target entity' : Value} {rule : Rule} {base path : Path}
      (starts : Starts f.payload entity rule base) (hp : rule.path? = some path)
      (h : Value.present? ((base.join path).get? entity) = some current)
      (hc : ∀ e, ¬ Clash mode f (base.join path) current e)
      (ht : base.get? entity = some target)
      (hset : (base.join path).set? entity (adopter (filled f current) target) = some entity') :
      Outcome mode adopter f raw (some entity) rule
        (.ok (.written (base.join path) ⟨filled f current, target⟩ (waits f current) entity'))

section Substitution

variable {mode : Mode} {f : Fragment} {place : Path}

theorem filled_of_isScalar {v : Value} (h : v.isScalar = true) : filled f v = f.payload := by
  cases v with
  | bool | number | string => rfl
  | _ => cases h

theorem waits_of_isScalar {v : Value} (h : v.isScalar = true) :
    waits f v = matchingIds (some v) f.id? := by
  cases v with
  | bool | number | string => rfl
  | _ => cases h

theorem fillElement_of_not_waits {items : List Value} (h : waits f (.array items) = false) :
    items.map (fillElement f) = items := by
  have hi : ∀ element ∈ items, fillElement f element = element := by
    intro element he
    rw [waits, List.any_eq_false] at h
    exact if_neg (h element he)
  rw [List.map_congr_left hi, List.map_id']

/-- A value is refused for a clash and for nothing else. -/
theorem substitute_of_clash {current : Value} {e : AssemblyError}
    (h : Clash mode f place current e) : substitute mode f place current = .error e := by
  cases h with
  | @unmatched items strict h =>
    subst strict
    have hw : (items.any fun element => matchingIds element.slotId? f.id?) = false := by
      simpa using h
    simp [substitute, hw]
  | resolved => rfl
  | other scalar h =>
    cases current <;> simp_all [substitute, Value.isScalar, Value.slotId?]

/-- What is there, is no collection and is not refused is its own identifier. -/
theorem isScalar_of_not_clash {v : Value} (hnull : v ≠ .null) (harray : ∀ items, v ≠ .array items)
    (h : ∀ e, ¬ Clash mode f place v e) : v.isScalar = true := by
  cases v with
  | null => exact absurd rfl hnull
  | array items => exact absurd rfl (harray items)
  | object fields => exact absurd (.resolved fields) (h _)
  | _ => rfl

theorem matchingIds_of_not_clash {v : Value} (scalar : v.isScalar = true)
    (h : ∀ e, ¬ Clash mode f place v e) : matchingIds (some v) f.id? = true :=
  Bool.of_not_eq_false fun hm => h _ (.other scalar hm)

/-- Whether a collection is refused is told from which elements wait for the payload. -/
theorem not_clash_of_map_eq {items items' : List Value}
    (h : items.map (fun element => matchingIds element.slotId? f.id?)
      = items'.map fun element => matchingIds element.slotId? f.id?)
    (hc : ∀ e, ¬ Clash mode f place (.array items) e) (e : AssemblyError) :
    ¬ Clash mode f place (.array items') e := by
  intro hc'
  cases hc' with
  | other scalar h => cases scalar
  | unmatched strict hnone =>
    have hall : ∀ b ∈ items'.map fun element => matchingIds element.slotId? f.id?, b = false := by
      simpa using hnone
    rw [← h] at hall
    exact hc _ (.unmatched strict (by simpa using hall))

theorem substitute_of_isScalar {v : Value} (scalar : v.isScalar = true)
    (h : ∀ e, ¬ Clash mode f place v e) :
    substitute mode f place v = .ok ⟨filled f v, waits f v⟩ := by
  have hm : matchingIds v.slotId? f.id? = true := by
    rw [Value.slotId?_of_isScalar scalar]
    exact matchingIds_of_not_clash scalar h
  rw [filled_of_isScalar scalar, waits_of_isScalar scalar, ← Value.slotId?_of_isScalar scalar, hm]
  cases v with
  | bool | number | string => simp [substitute, hm]
  | _ => cases scalar

theorem substitute_of_not_clash {current : Value} (hnull : current ≠ .null)
    (h : ∀ e, ¬ Clash mode f place current e) :
    substitute mode f place current = .ok ⟨filled f current, waits f current⟩ := by
  by_cases harray : ∃ items, current = .array items
  · obtain ⟨items, rfl⟩ := harray
    cases hw : waits f (.array items) with
    | true =>
      rw [waits] at hw
      simp [substitute, filled, hw]
    | false =>
      cases mode with
      | strict => exact absurd (.unmatched rfl (by simpa [waits] using hw)) (h _)
      | lenient =>
        have hi := fillElement_of_not_waits hw
        rw [waits] at hw
        simp [substitute, filled, hw, hi]
  · exact substitute_of_isScalar (isScalar_of_not_clash hnull (not_exists.mp harray) h) h

end Substitution

section Location

variable {payload entity target : Value}

/-- There is something where a rule's path starts. -/
theorem Starts.exists_target {rule : Rule} {base : Path} (h : Starts payload entity rule base) :
    ∃ target, base.get? entity = some target := by
  cases h with
  | direct => exact ⟨entity, rfl⟩
  | @indexed _ _ _ items i element collection here accepted first =>
    refine ⟨element, ?_⟩
    rw [Path.get?_atIndex, collection]
    exact here

/-- The parent collection is searched up to the first element that is accepted. -/
theorem locate_of_starts {parent path base : Path} {m : Matcher}
    (h : Starts payload entity (.indexed parent path m) base)
    (ht : base.get? entity = some target) :
    locate parent m payload entity = .ok ⟨base, target⟩ := by
  cases h with
  | @indexed _ _ _ items i element collection here accepted first =>
    rw [Path.get?_atIndex, collection] at ht
    obtain rfl : element = target := Option.some.inj (here.symm.trans ht)
    obtain ⟨hi, rfl⟩ := List.getElem?_eq_some_iff.mp here
    have hfind : items.findFinIdx? (m.accepts payload) = some ⟨i, hi⟩ := by
      rw [List.findFinIdx?_eq_some_iff]
      refine ⟨accepted, fun j hj => ?_⟩
      simpa using first j hj items[j] (List.getElem?_eq_getElem _)
    simp [locate, collection, Value.present?, hfind]

/-- What a rule with a path and a place to start at does. -/
theorem place_of_starts {mode : Mode} {adopter : Adopter} {f : Fragment} {raw : Value}
    {rule : Rule} {base path : Path} (h : Starts f.payload entity rule base)
    (hp : rule.path? = some path) (ht : base.get? entity = some target) :
    place mode adopter (some entity) rule f raw
      = fill mode adopter entity ⟨base, target⟩ path f raw := by
  cases rule with
  | root => cases hp
  | direct q =>
    cases h
    cases hp
    cases ht
    rfl
  | indexed parent q m =>
    cases hp
    have hl := locate_of_starts h ht
    simp [place, hl, bind, Except.bind]

end Location

section Exactness

variable {mode : Mode} {adopter : Adopter} {f : Fragment} {raw : Value}

theorem Outcome.place_eq {entity : Option Value} {rule : Rule} {r : Except AssemblyError Effect}
    (h : Outcome mode adopter f raw entity rule r) : place mode adopter entity rule f raw = r := by
  cases h with
  | begun => rfl
  | rootAgain => rfl
  | notBegun => rfl
  | noParent h =>
    cases entity with
    | none => rfl
    | some entity =>
      rw [Option.bind_some] at h
      simp [place, locate, h, bind, Except.bind]
  | noCollection h hnull harray =>
    have hv := Value.present?_eq_some.mpr ⟨h, hnull⟩
    simp only [place, locate, hv]
    rfl
  | @noMatch _ items _ _ _ h hm =>
    have hfind : items.findFinIdx? (_ : Value → Bool) = none :=
      List.findFinIdx?_eq_none_iff.mpr fun element he => by simpa using hm element he
    simp [place, locate, h, Value.present?, hfind, bind, Except.bind]
  | nothingWaits starts hp h =>
    obtain ⟨target, ht⟩ := starts.exists_target
    rw [Path.get?_join, ht, Option.bind_some] at h
    rw [place_of_starts starts hp ht, fill, h]
  | clash starts hp h hc =>
    obtain ⟨target, ht⟩ := starts.exists_target
    rw [Path.get?_join, ht, Option.bind_some] at h
    rw [place_of_starts starts hp ht, fill, h]
    simp [substitute_of_clash hc, bind, Except.bind]
  | written starts hp h hc ht hset =>
    have hs := substitute_of_not_clash (Value.present?_eq_some.mp h).2 hc
    rw [Path.get?_join, ht, Option.bind_some] at h
    rw [place_of_starts starts hp ht, fill, h]
    simp [hs, hset, bind, Except.bind]

theorem exists_outcome_of_starts {entity : Value} {rule : Rule} {base path : Path}
    (starts : Starts f.payload entity rule base) (hp : rule.path? = some path) :
    ∃ r, Outcome mode adopter f raw (some entity) rule r := by
  cases h : Value.present? ((base.join path).get? entity) with
  | none => exact ⟨_, .nothingWaits starts hp h⟩
  | some current =>
    by_cases hc : ∃ e, Clash mode f (base.join path) current e
    · obtain ⟨e, hc⟩ := hc
      exact ⟨_, .clash starts hp h hc⟩
    · obtain ⟨target, ht⟩ := starts.exists_target
      obtain ⟨entity', hset⟩ := Path.exists_set? (Value.present?_eq_some.mp h).1
        (adopter (filled f current) target)
      exact ⟨_, .written starts hp h (not_exists.mp hc) ht hset⟩

theorem exists_outcome (entity : Option Value) (rule : Rule) :
    ∃ r, Outcome mode adopter f raw entity rule r := by
  cases entity with
  | none =>
    cases rule with
    | root => exact ⟨_, .begun⟩
    | direct path => exact ⟨_, .notBegun path⟩
    | indexed parent path m => exact ⟨_, .noParent rfl⟩
  | some entity =>
    cases rule with
    | root => exact ⟨_, .rootAgain entity⟩
    | direct path => exact exists_outcome_of_starts .direct rfl
    | indexed parent path m =>
      cases h : Value.present? (parent.get? entity) with
      | none => exact ⟨_, .noParent h⟩
      | some v =>
        obtain ⟨h, hnull⟩ := Value.present?_eq_some.mp h
        by_cases harray : ∃ items, v = .array items
        · obtain ⟨items, rfl⟩ := harray
          cases hfind : items.findFinIdx? (m.accepts f.payload) with
          | none =>
            rw [List.findFinIdx?_eq_none_iff] at hfind
            exact ⟨_, .noMatch h fun element he => by simpa using hfind element he⟩
          | some i =>
            obtain ⟨accepted, first⟩ := List.findFinIdx?_eq_some_iff.mp hfind
            refine exists_outcome_of_starts
              (.indexed h (List.getElem?_eq_getElem i.isLt) accepted ?_) rfl
            intro j hj other hother
            obtain ⟨hlt, rfl⟩ := List.getElem?_eq_some_iff.mp hother
            simpa using first ⟨j, hlt⟩ hj
        · exact ⟨_, .noCollection h hnull (not_exists.mp harray)⟩

/-- `place` gives the outcome, which is one and the only one. -/
theorem place_eq_iff_outcome {entity : Option Value} {rule : Rule}
    {r : Except AssemblyError Effect} :
    place mode adopter entity rule f raw = r ↔ Outcome mode adopter f raw entity rule r := by
  refine ⟨?_, Outcome.place_eq⟩
  rintro rfl
  obtain ⟨r, h⟩ : ∃ r, Outcome mode adopter f raw entity rule r := exists_outcome entity rule
  exact h.place_eq ▸ h

end Exactness

/-- Once the place of a fragment starts somewhere, no parent is missing any more. -/
theorem Outcome.ne_parentNotFound {mode : Mode} {adopter : Adopter} {f : Fragment}
    {raw entity : Value} {rule : Rule} {base : Path} (starts : Starts f.payload entity rule base)
    (p : Path) : ¬ Outcome mode adopter f raw (some entity) rule (.error (.parentNotFound p)) := by
  intro h
  cases h with
  | noParent h =>
    cases starts with
    | indexed collection =>
      rw [Option.bind_some, collection] at h
      cases h
  | clash _ _ _ hc => cases hc

/-- A step comes to the one outcome the tree calls for; the write cannot fail. -/
theorem step_outcome (a : Assembler) (kind : EntityKind) (d : Descriptor) (position : Nat)
    (entity : Option Value) {raw : Value} {f : Fragment} {rule : Rule}
    (hf : Fragment.parse raw = .ok f) (hrule : d.rule? f.key = some rule) :
    ∃ r, (∀ r', Outcome a.mode a.adopter f raw entity rule r' ↔ r' = r) ∧
      (a.step kind d position entity raw).result = r.map (·.entity entity) ∧
      (∀ effect, r = .ok effect → (a.step kind d position entity raw).notes
        = .placing kind f.key position :: effect.notes f.key) ∧
      ∀ v base p, entity = some v → Starts f.payload v rule base →
        r ≠ .error (.parentNotFound p) := by
  refine ⟨place a.mode a.adopter entity rule f raw, fun r' => ?_, ?_, ?_, ?_⟩
  · rw [← place_eq_iff_outcome, eq_comm]
  · simp only [Assembler.step, hf, hrule]
    cases place a.mode a.adopter entity rule f raw <;> rfl
  · intro effect h
    simp only [Assembler.step, hf, hrule, h]
  · rintro v base p rfl starts h
    exact Outcome.ne_parentNotFound starts p (place_eq_iff_outcome.mp h)

/-- A track that no placeholder waits for is refused in strict mode. -/
theorem step_outcome_strange_track :
    let raw := Value.object [("track", .object [("id", .ofInt 8)])]
    let release := Value.object [("details", .object [("tracks", .array [.ofInt 7])])]
    (Assembler.step ⟨.builtin, .strict, .passThrough⟩ .albumRelease ⟨Registry.albumReleaseRules⟩ 1
      (some release) raw).result
      = .error (.placeholderNotFound [.key "details", .key "tracks"] (.ofInt 8)) := by
  intro raw release
  have hf : Fragment.parse raw = .ok ⟨"track", .object [("id", .ofInt 8)]⟩ := rfl
  obtain ⟨r, hr, hresult, -⟩ := step_outcome ⟨.builtin, .strict, .passThrough⟩ .albumRelease
    ⟨Registry.albumReleaseRules⟩ 1 (some release) hf rfl
  have hclash : ∀ element ∈ [Value.ofInt 7],
      matchingIds element.slotId? (some (.ofInt 8)) = false := by
    intro element he
    obtain rfl := List.mem_singleton.mp he
    decide
  obtain rfl := (hr _).mp (.clash .direct rfl rfl (.unmatched rfl hclash))
  exact hresult

end CatalogAssembly
