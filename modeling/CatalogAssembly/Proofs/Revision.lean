import CatalogAssembly.Proofs.Exchange

/-!
# Exchanging neighbours at one path

Fragments whose rules enter the entity at the same path are compared on the value
there: `Rule.revise`. When that value is a collection, a fragment is `Confined` to
some of its elements if it neither looks at the others nor changes them, nor takes
an element out of those it is confined to. Two fragments that are confined to
different elements can be exchanged, in whatever way each of them finds its own.
-/
namespace CatalogAssembly

open Json (Value)

section Confinement

variable {α : Type} {S T : α → Prop}

/-- Two lists differ in nothing but elements of a kind, which are of that kind in both. -/
def DifferIn (S : α → Prop) (xs ys : List α) : Prop :=
  ∀ i : Nat, xs[i]? = ys[i]? ∨ ∃ x y, xs[i]? = some x ∧ ys[i]? = some y ∧ S x ∧ S y

theorem DifferIn.symm {xs ys : List α} (h : DifferIn S xs ys) : DifferIn S ys xs := by
  intro i
  obtain hi | ⟨x, y, hx, hy, hsx, hsy⟩ := h i
  · exact .inl hi.symm
  · exact .inr ⟨y, x, hy, hx, hsy, hsx⟩

theorem DifferIn.mono (hst : ∀ x, S x → T x) {xs ys : List α} (h : DifferIn S xs ys) :
    DifferIn T xs ys := by
  intro i
  obtain hi | ⟨x, y, hx, hy, hsx, hsy⟩ := h i
  · exact .inl hi
  · exact .inr ⟨x, y, hx, hy, hst x hsx, hst y hsy⟩

/-- Where there is no element of the kind the lists are equal. -/
theorem DifferIn.getElem?_eq {xs ys : List α} (h : DifferIn S xs ys) {i : Nat}
    (hi : ¬ ∃ x, xs[i]? = some x ∧ S x) : ys[i]? = xs[i]? := by
  obtain heq | ⟨x, y, hx, -, hsx, -⟩ := h i
  · exact heq.symm
  · exact absurd ⟨x, hx, hsx⟩ hi

theorem DifferIn.getElem?_of_not {xs ys : List α} (h : DifferIn S xs ys) {i : Nat} {x : α}
    (hx : xs[i]? = some x) (hs : ¬ S x) : ys[i]? = some x := by
  have hi : ¬ ∃ z, xs[i]? = some z ∧ S z := by
    rintro ⟨z, hz, hsz⟩
    obtain rfl : x = z := Option.some.inj (hx.symm.trans hz)
    exact hs hsz
  rw [h.getElem?_eq hi, hx]

/-- Where there is an element of the kind in one there is one in the other. -/
theorem DifferIn.exists_of_kind {xs ys : List α} (h : DifferIn S xs ys) {i : Nat} {x : α}
    (hx : xs[i]? = some x) (hs : S x) : ∃ y, ys[i]? = some y ∧ S y := by
  obtain heq | ⟨x', y, -, hy, -, hsy⟩ := h i
  · exact ⟨x, heq ▸ hx, hs⟩
  · exact ⟨y, hy, hsy⟩

/-- A test that holds of nothing outside a kind tells the same of both. -/
theorem DifferIn.map_eq {p : α → Bool} (hp : ∀ x, p x = true → S x) {xs ys : List α}
    (h : DifferIn (¬ S ·) xs ys) : xs.map p = ys.map p := by
  have hp' : ∀ x, ¬ S x → p x = false := fun x hx => Bool.of_not_eq_true fun hpx => hx (hp x hpx)
  apply List.ext_getElem?
  intro i
  rw [List.getElem?_map, List.getElem?_map]
  obtain hi | ⟨x, y, hx, hy, hsx, hsy⟩ := h i
  · rw [hi]
  · rw [hx, hy, Option.map_some, Option.map_some, hp' x hsx, hp' y hsy]

/-- What is done to a list sees and changes nothing but the elements of a kind, and
leaves them of that kind. -/
structure Confined (S : α → Prop) (act : List α → List α → Prop) : Prop where
  changes : ∀ {xs xs'}, act xs xs' → DifferIn S xs xs'
  sees : ∀ {xs ys xs'}, DifferIn (¬ S ·) xs ys → act xs xs' →
    ∃ ys', act ys ys' ∧ ∀ (i : Nat) x, xs[i]? = some x → S x → ys'[i]? = xs'[i]?

/-- Elements of the kind are replaced, each by itself, under a condition on them. -/
theorem Confined.map {holds : List α → Prop} {k : α → α} (hk : ∀ x, S x → S (k x))
    (hrest : ∀ x, ¬ S x → k x = x)
    (hholds : ∀ {xs ys}, DifferIn (¬ S ·) xs ys → holds xs → holds ys) :
    Confined S fun xs xs' => holds xs ∧ xs' = xs.map k := by
  constructor
  · rintro xs xs' ⟨-, rfl⟩ i
    rw [List.getElem?_map]
    cases h : xs[i]? with
    | none => exact .inl rfl
    | some x =>
      by_cases hs : S x
      · exact .inr ⟨x, k x, rfl, rfl, hs, hk x hs⟩
      · exact .inl (by rw [Option.map_some, hrest x hs])
  · rintro xs ys xs' h ⟨hxs, rfl⟩
    refine ⟨ys.map k, ⟨hholds h hxs, rfl⟩, ?_⟩
    intro i x hx hs
    rw [List.getElem?_map, List.getElem?_map, hx, h.getElem?_of_not hx (not_not_intro hs)]

/-- The first element that passes a test, which only elements of the kind do, is changed. -/
theorem Confined.modify {p : α → Bool} {changes : Nat → α → (α → α) → Prop}
    (hp : ∀ x, p x = true → S x) (hk : ∀ {i x k}, changes i x k → S x → S (k x)) :
    Confined S fun xs xs' => ∃ i x k, xs.findIdx? p = some i ∧ xs[i]? = some x ∧ changes i x k ∧
      xs' = xs.modify i k := by
  have hkind : ∀ {xs : List α} {i x}, xs.findIdx? p = some i → xs[i]? = some x → S x := by
    intro xs i x hfind hx
    obtain ⟨hi, hpx, -⟩ := List.findIdx?_eq_some_iff_getElem.mp hfind
    obtain ⟨-, rfl⟩ := List.getElem?_eq_some_iff.mp hx
    exact hp _ hpx
  constructor
  · rintro xs xs' ⟨i, x, k, hfind, hx, hc, rfl⟩ j
    have hs := hkind hfind hx
    by_cases hij : i = j
    · subst hij
      exact .inr ⟨x, k x, hx, by rw [List.getElem?_modify_eq, hx]; rfl, hs, hk hc hs⟩
    · exact .inl (List.getElem?_modify_ne k xs hij).symm
  · rintro xs ys xs' h ⟨i, x, k, hfind, hx, hc, rfl⟩
    have hsame : ∀ (j : Nat) z, xs[j]? = some z → S z → ys[j]? = some z :=
      fun j z hz hs => h.getElem?_of_not hz (not_not_intro hs)
    have hfind' : ys.findIdx? p = some i := by
      have hmap := congrArg (List.findIdx? id) (h.map_eq hp)
      rw [List.findIdx?_map, List.findIdx?_map] at hmap
      exact hmap.symm.trans hfind
    refine ⟨ys.modify i k, ⟨i, x, k, hfind', hsame i x hx (hkind hfind hx), hc, rfl⟩, ?_⟩
    intro j z hz hs
    rw [List.getElem?_modify, List.getElem?_modify, hz, hsame j z hz hs]

/-- What is confined to different elements is done in either order. -/
theorem Confined.exchange {f g : List α → List α → Prop} (hf : Confined S f) (hg : Confined T g)
    (hst : ∀ x, S x → ¬ T x) {xs xs₁ xs₂ : List α} (h₁ : f xs xs₁) (h₂ : g xs₁ xs₂) :
    ∃ ys₁, g xs ys₁ ∧ f ys₁ xs₂ := by
  have hts : ∀ x, T x → ¬ S x := fun x ht hs => hst x hs ht
  have hxs := hf.changes h₁
  obtain ⟨ys₁, hys₁, hsame⟩ := hg.sees (hxs.symm.mono hst) h₂
  have hys := hg.changes hys₁
  obtain ⟨ys₂, hys₂, hsame'⟩ := hf.sees (hys.mono hts) h₁
  have hxs' := hg.changes h₂
  have hys' := hf.changes hys₂
  have heq : ys₂ = xs₂ := by
    apply List.ext_getElem?
    intro i
    -- an element of the one kind, of the other, or of neither
    by_cases hs : ∃ x, xs[i]? = some x ∧ S x
    · obtain ⟨x, hx, hs⟩ := hs
      obtain ⟨x', hx', hs'⟩ := hxs.exists_of_kind hx hs
      rw [hsame' i x hx hs, hx', hxs'.getElem?_of_not hx' (hst x' hs')]
    · have hfirst : xs₁[i]? = xs[i]? := hxs.getElem?_eq hs
      by_cases ht : ∃ x, xs[i]? = some x ∧ T x
      · obtain ⟨x, hx, ht⟩ := ht
        obtain ⟨y, hy, ht'⟩ := hys.exists_of_kind hx ht
        rw [← hsame i x (hfirst.trans hx) ht, hy, hys'.getElem?_of_not hy (hts y ht')]
      · have hfirst' : ys₁[i]? = xs[i]? := hys.getElem?_eq ht
        rw [← hfirst] at ht
        rw [← hfirst'] at hs
        rw [hxs'.getElem?_eq ht, hys'.getElem?_eq hs, hfirst, hfirst']
  rw [heq] at hys₂
  exact ⟨ys₁, hys₁, hys₂⟩

end Confinement

/-- An entity in which an edit has left this at a path, or nothing when nothing was there. -/
def Path.write (p : Path) (entity : Option Value) : Option Value → Option Value
  | none => entity
  | some v => entity.map (p.put · v)

/-- Of two edits at one path only what they leave there together is seen. -/
theorem Edit.apply_apply (p : Path) (entity : Option Value) (x y : Edit) :
    y.apply p (x.apply p entity) = p.write entity (y.value (x.value (entity.bind p.get?))) := by
  cases entity with
  | none => cases x <;> cases y <;> rfl
  | some entity =>
    cases y with
    | keep w' =>
      cases x with
      | keep w =>
        cases h : p.get? entity with
        | none => simp only [apply, value, Option.bind_some, h, Path.write]
        | some c => simp only [apply, value, Option.bind_some, h, Path.write, Option.map_some,
            Path.put_of_get? h]
      | replace v => rfl
    | replace v' =>
      cases x with
      | keep w => rfl
      | replace v => simp only [apply, value, Path.write, Option.map_some, Path.put_put]

/-- What a fragment leaves of the value its rule enters the entity at. -/
def Rule.revise (mode : Mode) (f : Fragment) (raw : Value) (rule : Rule) (here : Option Value) :
    Except AssemblyError (Option Value) :=
  (rule.edit mode f raw here).map (·.value here)

section OnePath

variable {a : Assembler} {kind : EntityKind} {d : Descriptor} {x y : Value} {f g : Fragment}
  {rf rg : Rule} {p : Path}

theorem revise_eq_ok {mode : Mode} {raw : Value} {rule : Rule} {here after : Option Value} :
    rule.revise mode f raw here = .ok after ↔
      ∃ edit, rule.edit mode f raw here = .ok edit ∧ edit.value here = after := by
  rw [Rule.revise]
  cases rule.edit mode f raw here with
  | error e => simp [Except.map]
  | ok edit => simp [Except.map]

/-- Two fragments with one path succeed when the second one does with what the first left. -/
theorem run_pair_eq_ok (ha : a.adopter = .passThrough) (hf : Fragment.parse x = .ok f)
    (hg : Fragment.parse y = .ok g) (hrf : d.rule? f.key = some rf) (hrg : d.rule? g.key = some rg)
    (hp : rf.access? = some p) (hp' : rg.access? = some p) (n : Nat) (s t : Option Value) :
    (a.run kind d n s [x, y]).result = .ok t ↔
      ∃ between after, rf.revise a.mode f x (s.bind p.get?) = .ok between ∧
        rg.revise a.mode g y between = .ok after ∧ t = p.write s after := by
  rw [run_pair, Noted.result_andThen_eq_ok]
  constructor
  · rintro ⟨s', hx, hy⟩
    obtain ⟨edit, hedit, rfl⟩ := (step_eq_ok ha kind d hf hrf hp).mp hx
    obtain ⟨edit', hedit', rfl⟩ := (step_eq_ok ha kind d hg hrg hp').mp hy
    rw [get?_apply_edit hedit] at hedit'
    exact ⟨_, _, revise_eq_ok.mpr ⟨edit, hedit, rfl⟩, revise_eq_ok.mpr ⟨edit', hedit', rfl⟩,
      Edit.apply_apply p s edit edit'⟩
  · rintro ⟨between, after, hx, hy, rfl⟩
    obtain ⟨edit, hedit, rfl⟩ := revise_eq_ok.mp hx
    obtain ⟨edit', hedit', rfl⟩ := revise_eq_ok.mp hy
    refine ⟨edit.apply p s, (step_eq_ok ha kind d hf hrf hp).mpr ⟨edit, hedit, rfl⟩,
      (step_eq_ok ha kind d hg hrg hp').mpr ⟨edit', ?_, Edit.apply_apply p s edit edit'⟩⟩
    rw [get?_apply_edit hedit, hedit']

/-- What a fragment may make of a value when it is confined to some elements of a collection:
nothing of a value that is not there, and at most an object of one that is no collection. -/
structure Keeps (S : Value → Prop) (revise : Option Value → Except AssemblyError (Option Value)) :
    Prop where
  absent : ∀ {here after}, Value.present? here = none → revise here = .ok after → after = here
  single : ∀ {v after}, v ≠ .null → (∀ items, v ≠ .array items) → revise (some v) = .ok after →
    v.isScalar = true ∧ ∃ fields, after = some (.object fields)
  collection : ∀ {items after}, revise (some (.array items)) = .ok after →
    ∃ items', after = some (.array items')
  confined : Confined S fun items items' =>
    revise (some (.array items)) = .ok (some (.array items'))

theorem Keeps.exchange {S T : Value → Prop}
    {rx ry : Option Value → Except AssemblyError (Option Value)} (hx : Keeps S rx)
    (hy : Keeps T ry) (hst : ∀ v, S v → ¬ T v) {here between after : Option Value}
    (h₁ : rx here = .ok between) (h₂ : ry between = .ok after) :
    ∃ between', ry here = .ok between' ∧ rx between' = .ok after := by
  cases h : Value.present? here with
  | none =>
    obtain rfl := hx.absent h h₁
    obtain rfl := hy.absent h h₂
    exact ⟨_, h₂, h₁⟩
  | some v =>
    obtain ⟨rfl, hnull⟩ := Value.present?_eq_some.mp h
    by_cases harray : ∃ items, v = .array items
    · obtain ⟨items, rfl⟩ := harray
      obtain ⟨items₁, rfl⟩ := hx.collection h₁
      obtain ⟨items₂, rfl⟩ := hy.collection h₂
      obtain ⟨items', h₂', h₁'⟩ := hx.confined.exchange hy.confined hst h₁ h₂
      exact ⟨_, h₂', h₁'⟩
    · obtain ⟨-, fields, rfl⟩ := hx.single hnull (not_exists.mp harray) h₁
      obtain ⟨hscalar, -⟩ := hy.single (v := .object fields) nofun nofun h₂
      cases hscalar

/-- Neighbours confined to different elements of one collection can be exchanged. -/
theorem run_pair_agree (ha : a.adopter = .passThrough) (hf : Fragment.parse x = .ok f)
    (hg : Fragment.parse y = .ok g) (hrf : d.rule? f.key = some rf) (hrg : d.rule? g.key = some rg)
    (hp : rf.access? = some p) (hp' : rg.access? = some p) {S T : Value → Prop}
    (hS : Keeps S (rf.revise a.mode f x)) (hT : Keeps T (rg.revise a.mode g y))
    (hst : ∀ v, S v → ¬ T v) (n : Nat) (s : Option Value) :
    Agree (a.run kind d n s [x, y]).result (a.run kind d n s [y, x]).result := by
  have hts : ∀ v, T v → ¬ S v := fun v ht hs => hst v hs ht
  apply Agree.of_ok
  · intro t h
    rw [run_pair_eq_ok ha hf hg hrf hrg hp hp'] at h
    rw [run_pair_eq_ok ha hg hf hrg hrf hp' hp]
    obtain ⟨between, after, h₁, h₂, ht⟩ := h
    obtain ⟨between', h₂', h₁'⟩ := hS.exchange hT hst h₁ h₂
    exact ⟨between', after, h₂', h₁', ht⟩
  · intro t h
    rw [run_pair_eq_ok ha hg hf hrg hrf hp' hp] at h
    rw [run_pair_eq_ok ha hf hg hrf hrg hp hp']
    obtain ⟨between, after, h₂, h₁, ht⟩ := h
    obtain ⟨between', h₁', h₂'⟩ := hT.exchange hS hts h₂ h₁
    exact ⟨between', after, h₁', h₂', ht⟩

end OnePath

end CatalogAssembly
