import CatalogAssembly.Proofs.Frame
import CatalogAssembly.Proofs.Run

/-!
# States of a run

The entity is looked at between the fragments of a run: `stateAfter`. Once there is
an entity, each later state is reached from it by the fragments in between, and what
every step keeps is kept from the earlier state to the later one: `run_keeps`. When
values are written as they are, a step that changes the entity fills one place of it:
`Fills`.
-/
namespace CatalogAssembly

open Json (Value)

/-- What waits in a place gives way to a payload. -/
structure Fills (mode : Mode) (f : Fragment) (p : Path) (before after current : Value) : Prop where
  waiting : p.get? before = some current
  notNull : current ≠ .null
  noClash : ∀ e, ¬ Clash mode f p current e
  put : after = p.put before (filled f current)

namespace Fills

variable {mode : Mode} {f : Fragment} {p : Path} {before after current : Value}

theorem not_object (h : Fills mode f p before after current) (fields : List (String × Value)) :
    current ≠ .object fields := by
  rintro rfl
  exact h.noClash _ (.resolved fields)

theorem read (h : Fills mode f p before after current) :
    p.get? after = some (filled f current) := by
  rw [h.put]
  exact Path.get?_put h.waiting _

theorem apart (h : Fills mode f p before after current) {q : Path} (hd : p.Diverge q) :
    q.get? after = q.get? before := by
  rw [h.put]
  exact Path.get?_put_of_diverge hd _ _

/-- From above, the place is filled inside the value that is read. -/
theorem above {q r : Path} (h : Fills mode f (q.join r) before after current) :
    q.get? after = (q.get? before).map (r.put · (filled f current)) := by
  rw [h.put]
  exact Path.get?_put_join q r _ _

theorem frame (h : Fills mode f p before after current) : p.Frame before after := by
  rw [h.put]
  exact Path.frame_put h.waiting _

/-- No object waits, so that nothing is read through a name below the place. -/
theorem get?_below_key (h : Fills mode f p before after current) (name : String) (r : Path) :
    (p.join (.key name :: r)).get? before = none := by
  rw [Path.get?_join, h.waiting, Option.bind_some, Path.get?_cons]
  cases current with
  | object fields => exact absurd rfl (h.not_object fields)
  | _ => rfl

/-- What is read by an index below the place is an element of a collection, which is
filled with the others. -/
theorem collection_of_child? (h : Fills mode f p before after current) {i : Nat} {element : Value}
    (hi : (p.atIndex i).get? before = some element) :
    (p.atIndex i).get? after = some (fillElement f element) := by
  rw [Path.get?_atIndex, h.waiting, Option.bind_some] at hi
  rw [Path.get?_atIndex, h.read, Option.bind_some]
  cases current with
  | object fields => exact absurd rfl (h.not_object fields)
  | array items =>
    change items[i]? = some element at hi
    change (items.map (fillElement f))[i]? = _
    rw [List.getElem?_map, hi, Option.map_some]
  | _ => cases hi

end Fills

namespace Assembler

variable {a : Assembler} {kind : EntityKind} {d : Descriptor}

/-- What the first `n` fragments come to. -/
def stateAfter (a : Assembler) (kind : EntityKind) (d : Descriptor) (fragments : List Value)
    (n : Nat) : Except AssemblyError (Option Value) :=
  (a.run kind d 0 none (fragments.take n)).result

theorem run_append_ok {position : Nat} {s t : Option Value} {xs ys : List Value} :
    (a.run kind d position s (xs ++ ys)).result = .ok t ↔
      ∃ u, (a.run kind d position s xs).result = .ok u ∧
        (a.run kind d (position + xs.length) u ys).result = .ok t := by
  rw [a.run_append]
  exact Noted.result_andThen_eq_ok

/-- From a state with an entity on, each state has one, and the fragments in between lead there. -/
theorem exists_later_state {fragments : List Value} {r : Option Value} {m n : Nat} {s : Value}
    (h : (a.run kind d 0 none fragments).result = .ok r) (hmn : m ≤ n)
    (hs : a.stateAfter kind d fragments m = .ok (some s)) :
    ∃ t position, a.stateAfter kind d fragments n = .ok (some t) ∧
      (a.run kind d position (some s) ((fragments.take n).drop m)).result = .ok (some t) := by
  rw [← List.take_append_drop n fragments] at h
  obtain ⟨u, hu, -⟩ := run_append_ok.mp h
  have hsplit := hu
  rw [← List.take_append_drop m (fragments.take n), List.take_take, Nat.min_eq_left hmn] at hsplit
  obtain ⟨s', hs', hrest⟩ := run_append_ok.mp hsplit
  cases hs'.symm.trans hs
  obtain ⟨⟨t, rfl⟩, -⟩ := run_of_begun a hrest
  exact ⟨t, _, hu, hrest⟩

/-- What every step keeps is kept by a run. -/
theorem run_keeps {P : Value → Prop} {fragments : List Value}
    (hstep : ∀ raw ∈ fragments, ∀ position s t, P s →
      (a.step kind d position (some s) raw).result = .ok (some t) → P t)
    {position : Nat} {s t : Value} (hs : P s)
    (h : (a.run kind d position (some s) fragments).result = .ok (some t)) : P t := by
  induction fragments generalizing position s with
  | nil =>
    cases h
    exact hs
  | cons raw rest ih =>
    obtain ⟨u, hu, h⟩ := (run_cons_ok a).mp h
    obtain ⟨⟨u, rfl⟩, -⟩ := step_of_begun a hu
    refine ih (fun raw' hraw' => hstep raw' (List.mem_cons_of_mem raw hraw')) ?_ h
    exact hstep raw List.mem_cons_self position s u hs hu

/-- A step leaves the entity as it is or fills the place its rule means. -/
theorem step_fills (ha : a.adopter = .passThrough) {position : Nat} {raw s t : Value}
    (h : (a.step kind d position (some s) raw).result = .ok (some t)) :
    t = s ∨ ∃ f rule base path current, Fragment.parse raw = .ok f ∧ d.rule? f.key = some rule ∧
      Starts f.payload s rule base ∧ rule.path? = some path ∧
      Fills a.mode f (base.join path) s t current := by
  obtain ⟨f, hf, ⟨-, hs⟩ | ⟨rule, effect, hrule, hplace, hs⟩⟩ := step_ok a h
  · exact .inl (Option.some.inj hs)
  · cases place_eq_iff_outcome.mp hplace with
    | nothingWaits => exact .inl (Option.some.inj hs)
    | @written _ current target entity' _ base path starts hp hcurrent hc ht hset =>
      obtain ⟨hwaiting, hnull⟩ := Value.present?_eq_some.mp hcurrent
      obtain rfl : t = entity' := Option.some.inj hs
      refine .inr ⟨f, rule, base, path, current, hf, hrule, starts, hp, hwaiting, hnull, hc, ?_⟩
      rw [ha] at hset
      exact (Path.put_of_set? hset).symm

end Assembler

end CatalogAssembly
