import CatalogAssembly.Assembly.Run

/-!
# Runs

A run is taken apart at its steps, and an assembly into its run and the closing
check for a root. What a report is compared by is its result and its warnings,
`warned`; in these a run does not depend on the position it starts from.
-/
namespace CatalogAssembly

open Json (Value)

namespace Noted

variable {ν ε α β : Type}

theorem andThen_of_ok {r : Noted ν ε α} {x : α} (h : r.result = .ok x)
    (next : α → Noted ν ε β) :
    r.andThen next = ⟨r.notes ++ (next x).notes, (next x).result⟩ := by
  simp only [andThen, h]

theorem andThen_of_error {r : Noted ν ε α} {e : ε} (h : r.result = .error e)
    (next : α → Noted ν ε β) : r.andThen next = ⟨r.notes, .error e⟩ := by
  simp only [andThen, h]

theorem result_andThen_eq_ok {r : Noted ν ε α} {next : α → Noted ν ε β} {y : β} :
    (r.andThen next).result = .ok y ↔ ∃ x, r.result = .ok x ∧ (next x).result = .ok y := by
  cases h : r.result with
  | error e => simp [andThen_of_error h]
  | ok x => simp [andThen_of_ok h]

end Noted

namespace Reported

variable {α β : Type}

/-- A report of which only the warnings are kept. -/
def warned (r : Reported α) : Noted Warning AssemblyError α := ⟨r.warnings, r.result⟩

theorem warned_andThen_of_ok {r : Reported α} {x : α} (h : r.result = .ok x)
    (next : α → Reported β) :
    warned (r.andThen next) = ⟨r.warnings ++ (next x).warnings, (next x).result⟩ := by
  simp only [warned, Noted.andThen_of_ok h, warnings, List.filterMap_append]

theorem warned_andThen (r : Reported α) (next : α → Reported β) :
    warned (r.andThen next) = (warned r).andThen fun x => warned (next x) := by
  cases h : r.result with
  | error e =>
    rw [Noted.andThen_of_error h, Noted.andThen_of_error (r := warned r) h]
    rfl
  | ok x =>
    rw [warned_andThen_of_ok h, Noted.andThen_of_ok (r := warned r) h]
    rfl

end Reported

theorem Descriptor.mem_of_rule? {d : Descriptor} {key : String} {rule : Rule}
    (h : d.rule? key = some rule) : (key, rule) ∈ d.rules := by
  obtain ⟨before, after, hd, -⟩ := List.lookup_eq_some_iff.mp h
  rw [hd]
  exact List.mem_append_right before List.mem_cons_self

/-- The fragment is a root with this payload. -/
def Descriptor.Roots (d : Descriptor) (raw payload : Value) : Prop :=
  ∃ key, Fragment.parse raw = .ok ⟨key, payload⟩ ∧ d.rule? key = some .root

theorem Descriptor.not_roots {d : Descriptor} {raw : Value} {f : Fragment}
    (hf : Fragment.parse raw = .ok f) (h : d.rule? f.key ≠ some .root) (payload : Value) :
    ¬ d.Roots raw payload := by
  rintro ⟨key, hkey, hroot⟩
  cases hkey.symm.trans hf
  exact h hroot

/-- The warnings of an effect. -/
def Effect.warnings : Effect → List Warning
  | .skipped w => [w]
  | _ => []

/-- Nothing takes the entity away. -/
theorem Effect.exists_entity (effect : Effect) (entity : Value) :
    ∃ entity', effect.entity (some entity) = some entity' := by
  cases effect with
  | begun entity' => exact ⟨entity', rfl⟩
  | skipped => exact ⟨entity, rfl⟩
  | written _ _ _ entity' => exact ⟨entity', rfl⟩

/-- What became of a fragment as a step of the run, told by its warnings alone. -/
def stepped (entity : Option Value) :
    Except AssemblyError Effect → Noted Warning AssemblyError (Option Value)
  | .error e => .fail e
  | .ok effect => ⟨effect.warnings, .ok (effect.entity entity)⟩

namespace Assembler

open Reported (warned)

variable (a : Assembler) (kind : EntityKind) (d : Descriptor)

/-- A fragment with a rule warns of nothing but its being skipped. -/
theorem warned_step_of_rule {raw : Value} {f : Fragment} {rule : Rule}
    (hf : Fragment.parse raw = .ok f) (hrule : d.rule? f.key = some rule) (position : Nat)
    (entity : Option Value) :
    warned (a.step kind d position entity raw)
      = stepped entity (place a.mode a.adopter entity rule f raw) := by
  simp only [step, hf, hrule]
  cases place a.mode a.adopter entity rule f raw with
  | error e => rfl
  | ok effect =>
    cases effect with
    | written place adoption matched entity' => cases matched <;> rfl
    | _ => rfl

theorem warned_step_position (m n : Nat) (entity : Option Value) (raw : Value) :
    warned (a.step kind d m entity raw) = warned (a.step kind d n entity raw) := by
  cases hf : Fragment.parse raw with
  | error fault => simp only [step, hf]
  | ok f =>
    cases hrule : d.rule? f.key with
    | none => simp only [step, hf, hrule]
    | some rule => rw [warned_step_of_rule a kind d hf hrule, warned_step_of_rule a kind d hf hrule]

theorem warned_run_position (m n : Nat) (entity : Option Value) (fragments : List Value) :
    warned (a.run kind d m entity fragments) = warned (a.run kind d n entity fragments) := by
  induction fragments generalizing m n entity with
  | nil => rfl
  | cons raw rest ih =>
    rw [run, run, Reported.warned_andThen, Reported.warned_andThen,
      warned_step_position a kind d m n, funext fun s => ih (m + 1) (n + 1) s]

/-- What is left to do at the end of a run. -/
def close : Option Value → Reported (Option Value)
  | some entity => .pure (some entity)
  | none =>
    match a.mode with
    | .strict => .fail .missingRoot
    | .lenient => ⟨[.warned (.noRoot kind)], .ok none⟩

theorem finish_eq (r : Reported (Option Value)) : a.finish kind r = r.andThen (a.close kind) := by
  obtain ⟨notes, result⟩ := r
  cases result with
  | error e => rfl
  | ok entity =>
    cases entity with
    | none => cases hm : a.mode <;> simp [finish, close, hm, Noted.andThen, Noted.fail]
    | some entity => simp [finish, close, Noted.andThen, Noted.pure]

/-- A run with the check at its end. -/
def complete (position : Nat) (entity : Option Value) (fragments : List Value) :
    Reported (Option Value) :=
  (a.run kind d position entity fragments).andThen (a.close kind)

variable {kind d}

theorem complete_append (position : Nat) (entity : Option Value) (xs ys : List Value) :
    a.complete kind d position entity (xs ++ ys)
      = (a.run kind d position entity xs).andThen fun s =>
          a.complete kind d (position + xs.length) s ys := by
  rw [complete, a.run_append, Noted.andThen_assoc]
  rfl

theorem assemble_eq {fragments : List Value} (hne : fragments ≠ [])
    (hd : a.registry.descriptor? kind = some d) :
    a.assemble kind fragments = a.complete kind d 0 none fragments := by
  simp only [assemble, List.isEmpty_eq_false_iff.mpr hne, hd, finish_eq, Bool.false_eq_true,
    if_false, complete]

/-- An assembly taken apart around some of its fragments. -/
theorem assemble_split (hd : a.registry.descriptor? kind = some d) (xs : List Value)
    {zs : List Value} (hne : zs ≠ []) (ys : List Value) :
    a.assemble kind (xs ++ zs ++ ys)
      = (a.run kind d 0 none xs).andThen fun s =>
          (a.run kind d xs.length s zs).andThen fun t =>
            a.complete kind d (xs.length + zs.length) t ys := by
  have hne' : xs ++ (zs ++ ys) ≠ [] :=
    List.append_ne_nil_of_right_ne_nil xs (List.append_ne_nil_of_left_ne_nil hne ys)
  rw [List.append_assoc, a.assemble_eq hne' hd, a.complete_append, Nat.zero_add]
  exact congrArg _ (funext fun s => a.complete_append xs.length s zs ys)

/-- An assembly that succeeds is a run that ends with the same. -/
theorem run_of_assemble {fragments : List Value} {s : Option Value}
    (hd : a.registry.descriptor? kind = some d)
    (h : (a.assemble kind fragments).result = .ok s) :
    (a.run kind d 0 none fragments).result = .ok s := by
  cases fragments with
  | nil => exact h
  | cons raw rest =>
    rw [assemble_eq a (List.cons_ne_nil raw rest) hd, complete, Noted.result_andThen_eq_ok] at h
    obtain ⟨s', hs, h⟩ := h
    cases s' with
    | some entity =>
      cases h
      exact hs
    | none =>
      rw [close] at h
      split at h
      · cases h
      · cases h
        exact hs

theorem run_cons_ok {position : Nat} {s t : Option Value} {raw : Value} {rest : List Value} :
    (a.run kind d position s (raw :: rest)).result = .ok t ↔
      ∃ s', (a.step kind d position s raw).result = .ok s' ∧
        (a.run kind d (position + 1) s' rest).result = .ok t :=
  Noted.result_andThen_eq_ok

/-- The ways in which a step can succeed. -/
theorem step_ok {position : Nat} {s s' : Option Value} {raw : Value}
    (h : (a.step kind d position s raw).result = .ok s') :
    ∃ f, Fragment.parse raw = .ok f ∧ ((d.rule? f.key = none ∧ s' = s) ∨
      ∃ rule effect, d.rule? f.key = some rule ∧
        place a.mode a.adopter s rule f raw = .ok effect ∧ s' = effect.entity s) := by
  cases hf : Fragment.parse raw with
  | error fault =>
    simp only [step, hf] at h
    cases h
  | ok f =>
    refine ⟨f, rfl, ?_⟩
    cases hrule : d.rule? f.key with
    | none =>
      simp only [step, hf, hrule] at h
      cases h
      exact .inl ⟨rfl, rfl⟩
    | some rule =>
      cases hplace : place a.mode a.adopter s rule f raw with
      | error e =>
        simp only [step, hf, hrule, hplace] at h
        cases h
      | ok effect =>
        simp only [step, hf, hrule, hplace] at h
        cases h
        exact .inr ⟨rule, effect, rfl, hplace, rfl⟩

/-- Once there is an entity it stays, and no root is taken any more. -/
theorem step_of_begun {position : Nat} {entity raw : Value} {t : Option Value}
    (h : (a.step kind d position (some entity) raw).result = .ok t) :
    (∃ entity', t = some entity') ∧ ∀ payload, ¬ d.Roots raw payload := by
  obtain ⟨f, hf, ⟨hnone, rfl⟩ | ⟨rule, effect, hrule, hplace, rfl⟩⟩ := step_ok a h
  · exact ⟨⟨entity, rfl⟩, Descriptor.not_roots hf (by rw [hnone]; exact nofun)⟩
  · refine ⟨effect.exists_entity entity, Descriptor.not_roots hf fun hroot => ?_⟩
    cases hroot.symm.trans hrule
    cases hplace

theorem run_of_begun {position : Nat} {entity : Value} {t : Option Value} {fragments : List Value}
    (h : (a.run kind d position (some entity) fragments).result = .ok t) :
    (∃ entity', t = some entity') ∧ ∀ raw ∈ fragments, ∀ payload, ¬ d.Roots raw payload := by
  induction fragments generalizing position entity with
  | nil =>
    cases h
    exact ⟨⟨entity, rfl⟩, fun raw hraw => absurd hraw List.not_mem_nil⟩
  | cons raw rest ih =>
    obtain ⟨s', hs, h⟩ := (run_cons_ok a).mp h
    obtain ⟨⟨entity', rfl⟩, hraw⟩ := step_of_begun a hs
    obtain ⟨ht, hrest⟩ := ih h
    exact ⟨ht, List.forall_mem_cons.mpr ⟨hraw, hrest⟩⟩

/-- Without an entity a fragment begins one as its root or does nothing. -/
theorem step_of_not_begun {position : Nat} {raw : Value} {t : Option Value}
    (h : (a.step kind d position none raw).result = .ok t) :
    (∃ payload, d.Roots raw payload ∧ t = some payload) ∨
      t = none ∧ ∀ payload, ¬ d.Roots raw payload := by
  obtain ⟨f, hf, ⟨hnone, rfl⟩ | ⟨rule, effect, hrule, hplace, rfl⟩⟩ := step_ok a h
  · exact .inr ⟨rfl, Descriptor.not_roots hf (by rw [hnone]; exact nofun)⟩
  · cases rule with
    | root =>
      cases hplace
      exact .inl ⟨f.payload, ⟨f.key, hf, hrule⟩, rfl⟩
    | direct path =>
      cases hplace
      exact .inr ⟨rfl, Descriptor.not_roots hf (by rw [hrule]; exact nofun)⟩
    | indexed parent path m => cases hplace

/-- A run that ends with an entity has one root, from which the entity was built. -/
theorem exists_root_of_run {position : Nat} {entity : Value} {fragments : List Value}
    (h : (a.run kind d position none fragments).result = .ok (some entity)) :
    ∃ before root after payload n, fragments = before ++ root :: after ∧ d.Roots root payload ∧
      (∀ raw ∈ before ++ after, ∀ payload', ¬ d.Roots raw payload') ∧
      (a.run kind d n (some payload) after).result = .ok (some entity) := by
  induction fragments generalizing position with
  | nil => cases h
  | cons raw rest ih =>
    obtain ⟨s', hs, h⟩ := (run_cons_ok a).mp h
    obtain ⟨payload, hroot, rfl⟩ | ⟨rfl, hraw⟩ := step_of_not_begun a hs
    · exact ⟨[], raw, rest, payload, position + 1, rfl, hroot, (run_of_begun a h).2, h⟩
    · obtain ⟨before, root, after, payload, n, rfl, hroot, hothers, h⟩ := ih h
      exact ⟨raw :: before, root, after, payload, n, rfl, hroot,
        List.forall_mem_cons.mpr ⟨hraw, hothers⟩, h⟩

end Assembler

end CatalogAssembly
