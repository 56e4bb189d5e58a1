import CatalogAssembly.Proofs.Outcome
import CatalogAssembly.Proofs.Run

/-!
# Strict and lenient mode

Strict mode refuses a collection in which nothing waits for the payload, and an
entity without a root; in all else it is lenient mode. Step by step, and so over a
whole run, the strict run is the lenient one with all its notes, or it ends for want
of a placeholder: `run_strict`. At the end of a run without a root the modes part
once more.
-/
namespace CatalogAssembly

open Json (Value)

/-- Refused because nothing in a collection waited for the payload. -/
def Refused {α : Type} (r : Except AssemblyError α) : Prop :=
  ∃ p id, r = .error (.placeholderNotFound p id)

section Step

variable (adopter : Adopter) (f : Fragment)

theorem substitute_strict (p : Path) (current : Value) :
    substitute .strict f p current = substitute .lenient f p current ∨
      Refused (substitute .strict f p current) := by
  cases current with
  | array items =>
    by_cases h : (items.any fun element => matchingIds element.slotId? f.id?) = true
    · left
      simp only [substitute, if_pos h]
    · right
      refine ⟨p, f.id?.getD .null, ?_⟩
      simp only [substitute, if_neg h]
  | _ => exact .inl rfl

theorem fill_strict (entity : Value) (l : Location) (path : Path) (raw : Value) :
    fill .strict adopter entity l path f raw = fill .lenient adopter entity l path f raw ∨
      Refused (fill .strict adopter entity l path f raw) := by
  simp only [fill]
  cases Value.present? (path.get? l.target) with
  | none => exact .inl rfl
  | some current =>
    obtain h | ⟨p, id, h⟩ := substitute_strict f (l.base.join path) current
    · left
      simp only [h]
    · right
      refine ⟨p, id, ?_⟩
      simp only [h]
      rfl

theorem place_strict (entity : Option Value) (rule : Rule) (raw : Value) :
    place .strict adopter entity rule f raw = place .lenient adopter entity rule f raw ∨
      Refused (place .strict adopter entity rule f raw) := by
  cases entity with
  | none => cases rule <;> exact .inl rfl
  | some entity =>
    cases rule with
    | root => exact .inl rfl
    | direct path => exact fill_strict adopter f entity ⟨[], entity⟩ path raw
    | indexed parent path m =>
      simp only [place]
      cases locate parent m f.payload entity with
      | error e => exact .inl rfl
      | ok l => exact fill_strict adopter f entity l path raw

variable {adopter f}

/-- That the root is missing is not found out by placing a fragment. -/
theorem place_ne_missingRoot {mode : Mode} {entity : Option Value} {rule : Rule} {raw : Value} :
    place mode adopter entity rule f raw ≠ .error .missingRoot := by
  intro h
  cases place_eq_iff_outcome.mp h with
  | clash _ _ _ hc => cases hc

end Step

namespace Assembler

/-- The same assembler in another mode. -/
def inMode (a : Assembler) (mode : Mode) : Assembler := { a with mode := mode }

variable (a : Assembler) (kind : EntityKind) (d : Descriptor)

theorem step_strict (position : Nat) (entity : Option Value) (raw : Value) :
    (a.inMode .strict).step kind d position entity raw
        = (a.inMode .lenient).step kind d position entity raw ∨
      Refused ((a.inMode .strict).step kind d position entity raw).result := by
  simp only [step]
  cases Fragment.parse raw with
  | error fault => exact .inl rfl
  | ok f =>
    cases hrule : d.rule? f.key with
    | none => simp only [hrule, true_or]
    | some rule =>
      obtain h | ⟨p, id, h⟩ := place_strict a.adopter f entity rule raw
      · left
        simp only [hrule, inMode, h]
      · right
        refine ⟨p, id, ?_⟩
        simp only [hrule, inMode, h]

theorem run_strict (position : Nat) (entity : Option Value) (fragments : List Value) :
    (a.inMode .strict).run kind d position entity fragments
        = (a.inMode .lenient).run kind d position entity fragments ∨
      Refused ((a.inMode .strict).run kind d position entity fragments).result := by
  induction fragments generalizing position entity with
  | nil => exact .inl rfl
  | cons raw rest ih =>
    simp only [run]
    -- the modes agree on the entity until a step is refused, which ends the strict run
    obtain hstep | ⟨p, id, hstep⟩ := step_strict a kind d position entity raw
    · rw [hstep]
      cases hs : ((a.inMode .lenient).step kind d position entity raw).result with
      | error e =>
        left
        rw [Noted.andThen_of_error hs, Noted.andThen_of_error hs]
      | ok s =>
        rw [Noted.andThen_of_ok hs, Noted.andThen_of_ok hs]
        obtain hrest | hrest := ih (position + 1) s
        · left
          rw [hrest]
        · exact .inr hrest
    · right
      rw [Noted.andThen_of_error hstep]
      exact ⟨p, id, rfl⟩

theorem step_ne_missingRoot (position : Nat) (entity : Option Value) (raw : Value) :
    (a.step kind d position entity raw).result ≠ .error .missingRoot := by
  intro h
  simp only [step] at h
  cases hf : Fragment.parse raw with
  | error fault =>
    rw [hf] at h
    cases h
  | ok f =>
    cases hrule : d.rule? f.key with
    | none =>
      simp only [hf, hrule] at h
      cases h
    | some rule =>
      cases hplace : place a.mode a.adopter entity rule f raw with
      | error e =>
        simp only [hf, hrule, hplace] at h
        cases h
        exact place_ne_missingRoot hplace
      | ok effect =>
        simp only [hf, hrule, hplace] at h
        cases h

theorem run_ne_missingRoot (position : Nat) (entity : Option Value) (fragments : List Value) :
    (a.run kind d position entity fragments).result ≠ .error .missingRoot := by
  induction fragments generalizing position entity with
  | nil => exact nofun
  | cons raw rest ih =>
    simp only [run]
    cases hs : (a.step kind d position entity raw).result with
    | error e =>
      rw [Noted.andThen_of_error hs, ← hs]
      exact step_ne_missingRoot a kind d position entity raw
    | ok s =>
      rw [Noted.andThen_of_ok hs]
      exact ih (position + 1) s

/-- How an assembly in strict mode may differ from the lenient one. -/
inductive StrictOf (kind : EntityKind) (lenient : Reported (Option Value)) :
    Reported (Option Value) → Prop
  | same (h : lenient.result ≠ .error .missingRoot) : StrictOf kind lenient lenient
  | refused {strict : Reported (Option Value)} (h : Refused strict.result) :
      StrictOf kind lenient strict
  | noRoot {notes : List Note} (h : lenient = ⟨notes ++ [.warned (.noRoot kind)], .ok none⟩) :
      StrictOf kind lenient ⟨notes, .error .missingRoot⟩

theorem complete_strict (position : Nat) (entity : Option Value) (fragments : List Value) :
    StrictOf kind ((a.inMode .lenient).complete kind d position entity fragments)
      ((a.inMode .strict).complete kind d position entity fragments) := by
  rw [complete, complete]
  obtain hrun | ⟨p, id, hrun⟩ := run_strict a kind d position entity fragments
  · rw [hrun]
    cases hs : ((a.inMode .lenient).run kind d position entity fragments).result with
    | error e =>
      rw [Noted.andThen_of_error hs, Noted.andThen_of_error hs]
      exact .same (hs ▸ run_ne_missingRoot _ kind d position entity fragments)
    | ok s =>
      rw [Noted.andThen_of_ok hs, Noted.andThen_of_ok hs]
      cases s with
      | some entity =>
        refine .same fun h => ?_
        cases h
      | none =>
        simp only [close, inMode, Noted.fail, List.append_nil]
        exact .noRoot rfl
  · rw [Noted.andThen_of_error hrun]
    exact .refused ⟨p, id, rfl⟩

theorem assemble_strict_of (fragments : List Value) :
    StrictOf kind ((a.inMode .lenient).assemble kind fragments)
      ((a.inMode .strict).assemble kind fragments) := by
  by_cases hne : fragments = []
  · subst hne
    exact .same nofun
  · cases hd : a.registry.descriptor? kind with
    | none =>
      have hempty := List.isEmpty_eq_false_iff.mpr hne
      simp only [assemble, hempty, inMode, hd]
      refine .same fun h => ?_
      cases h
    | some d =>
      rw [assemble_eq (a.inMode .strict) hne hd, assemble_eq (a.inMode .lenient) hne hd]
      exact complete_strict a kind d 0 none fragments

end Assembler

/-- Strict mode is lenient mode with more failures: for want of a placeholder, and of a root. -/
theorem assemble_strict (a : Assembler) (kind : EntityKind) (fragments : List Value) :
    let strict := (a.inMode .strict).assemble kind fragments
    let lenient := (a.inMode .lenient).assemble kind fragments
    (∀ r, strict.result = .ok r → lenient.result = .ok r ∧ lenient.warnings = strict.warnings ∧
      lenient.adoptions = strict.adoptions) ∧
    (∀ e, strict.result = .error e → (∀ p id, e ≠ .placeholderNotFound p id) →
      e ≠ .missingRoot → lenient.result = .error e ∧ lenient.warnings = strict.warnings) ∧
    (strict.result = .error .missingRoot → lenient.result = .ok none ∧
      lenient.warnings = strict.warnings ++ [.noRoot kind]) ∧
    ∀ e, lenient.result = .error e → strict.result = .error e ∨ Refused strict.result := by
  intro strict lenient
  have h : Assembler.StrictOf kind lenient strict := a.assemble_strict_of kind fragments
  generalize strict = strict' at h ⊢
  cases h with
  | same hne =>
    exact ⟨fun r h => ⟨h, rfl, rfl⟩, fun e h _ _ => ⟨h, rfl⟩, fun h => absurd h hne,
      fun e h => .inl h⟩
  | refused hrefused =>
    obtain ⟨p, id, hp⟩ := hrefused
    refine ⟨?_, ?_, ?_, fun e _ => .inr ⟨p, id, hp⟩⟩
    · intro r h
      cases hp.symm.trans h
    · intro e h hnot _
      cases hp.symm.trans h
      exact absurd rfl (hnot p id)
    · intro h
      cases hp.symm.trans h
  | @noRoot notes hlenient =>
    refine ⟨nofun, ?_, fun _ => ?_, ?_⟩
    · intro e h _ hnot
      cases h
      exact absurd rfl hnot
    · rw [hlenient]
      exact ⟨rfl, List.filterMap_append⟩
    · intro e h
      rw [hlenient] at h
      cases h

/-- An artist without a release is warned of in both modes, and in lenient mode the missing
release is as well. -/
theorem assemble_strict_artist_alone :
    let a : Assembler := ⟨.builtin, .lenient, .passThrough⟩
    let artist := Value.object [("artist", .object [("id", .ofInt 5)])]
    let noArtist := Warning.noIdentifier [.key "primaryArtists"] artist
    ((a.inMode .strict).assemble .albumRelease [artist]).result = .error .missingRoot ∧
      ((a.inMode .lenient).assemble .albumRelease [artist]).result = .ok none ∧
      ((a.inMode .lenient).assemble .albumRelease [artist]).warnings
        = [noArtist, .noRoot .albumRelease] := by
  intro a artist noArtist
  obtain ⟨-, -, hmissing, -⟩ := assemble_strict a .albumRelease [artist]
  obtain ⟨hresult, hwarnings⟩ := hmissing rfl
  exact ⟨rfl, hresult, hwarnings⟩

end CatalogAssembly
