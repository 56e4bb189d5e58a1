import CatalogAssembly.Proofs.States

/-!
# Roots and checkpoints

A run hands on its entity and nothing else. So the entity a run ended with, delivered
again as the payload of a root, stands for all the fragments it was built from:
`assemble_checkpoint`. And what comes before the root of a run leaves nothing behind,
so that the run may as well begin there: `assemble_one_root`, which also counts the
roots of a list by what became of it.
-/
namespace CatalogAssembly

open Json (Value)

namespace Descriptor

variable (d : Descriptor)

/-- The rule a fragment is placed by; there is none for a malformed one. -/
def ruleOf? (raw : Value) : Option Rule :=
  match Fragment.parse raw with
  | .ok f => d.rule? f.key
  | .error _ => none

/-- Whether a fragment is a root, whatever its payload. -/
def isRoot (raw : Value) : Bool := (d.ruleOf? raw).any Rule.isRoot

variable {d} {raw : Value}

theorem ruleOf?_of_parse {f : Fragment} (hf : Fragment.parse raw = .ok f) :
    d.ruleOf? raw = d.rule? f.key := by
  simp only [ruleOf?, hf]

theorem isRoot_iff_ruleOf? : d.isRoot raw = true ↔ d.ruleOf? raw = some .root := by
  unfold isRoot
  cases d.ruleOf? raw with
  | none => simp
  | some rule => cases rule <;> simp [Rule.isRoot]

theorem isRoot_iff_roots : d.isRoot raw = true ↔ ∃ payload, d.Roots raw payload := by
  rw [isRoot_iff_ruleOf?]
  constructor
  · intro h
    cases hf : Fragment.parse raw with
    | error fault =>
      simp only [ruleOf?, hf] at h
      cases h
    | ok f =>
      rw [ruleOf?_of_parse hf] at h
      exact ⟨f.payload, f.key, hf, h⟩
  · rintro ⟨payload, key, hf, hrule⟩
    rw [ruleOf?_of_parse hf]
    exact hrule

end Descriptor

namespace Assembler

open Reported (warned)

variable {a : Assembler} {kind : EntityKind} {d : Descriptor}

section Checkpoint

theorem warned_complete_position (m n : Nat) (s : Option Value) (fragments : List Value) :
    warned (a.complete kind d m s fragments) = warned (a.complete kind d n s fragments) := by
  unfold complete
  rw [Reported.warned_andThen, Reported.warned_andThen, warned_run_position a kind d m n]

theorem complete_cons (position : Nat) (s : Option Value) (raw : Value) (rest : List Value) :
    a.complete kind d position s (raw :: rest)
      = (a.step kind d position s raw).andThen fun t => a.complete kind d (position + 1) t rest := by
  rw [complete, run, Noted.andThen_assoc]
  rfl

/-- A root is taken without a word, and the rest goes on from its payload. -/
theorem warned_complete_root {key : String} (hroot : d.rule? key = some .root) (m n : Nat)
    (entity : Value) (fragments : List Value) :
    warned (a.complete kind d m none (.object [(key, entity)] :: fragments))
      = warned (a.complete kind d n (some entity) fragments) := by
  have hf : Fragment.parse (.object [(key, entity)]) = .ok ⟨key, entity⟩ := rfl
  have hstep : warned (a.step kind d m none (.object [(key, entity)])) = ⟨[], .ok (some entity)⟩ :=
    warned_step_of_rule a kind d hf hroot m none
  rw [complete_cons, Reported.warned_andThen, hstep, Noted.andThen_of_ok rfl, List.nil_append]
  exact warned_complete_position (m + 1) n (some entity) fragments

/-- Nothing but its warnings and its entity is left of a run that ended with one. -/
theorem warned_assemble_append (hd : a.registry.descriptor? kind = some d) {xs : List Value}
    {entity : Value} (h : (a.assemble kind xs).result = .ok (some entity)) (ys : List Value) :
    warned (a.assemble kind (xs ++ ys))
      = ⟨(a.assemble kind xs).warnings
          ++ (a.complete kind d xs.length (some entity) ys).warnings,
        (a.complete kind d xs.length (some entity) ys).result⟩ := by
  have hne : xs ≠ [] := by
    rintro rfl
    cases h
  have hrun := run_of_assemble a hd h
  have hxs : (a.assemble kind xs).warnings = (a.run kind d 0 none xs).warnings := by
    rw [assemble_eq a hne hd, complete, Noted.andThen_of_ok hrun]
    simp only [close, Noted.pure, List.append_nil, Reported.warnings]
  rw [assemble_eq a (List.append_ne_nil_of_left_ne_nil hne ys) hd, complete_append, Nat.zero_add,
    Reported.warned_andThen_of_ok hrun, hxs]

/-- What failed stays as it failed, whatever comes after it; a missing root may still come. -/
theorem assemble_append_of_error {xs : List Value} {e : AssemblyError}
    (h : (a.assemble kind xs).result = .error e) (he : e ≠ .missingRoot) (ys : List Value) :
    a.assemble kind (xs ++ ys) = a.assemble kind xs := by
  have hne : xs ≠ [] := by
    rintro rfl
    cases h
  have hne' : xs ++ ys ≠ [] := List.append_ne_nil_of_left_ne_nil hne ys
  cases hd : a.registry.descriptor? kind with
  | none =>
    simp only [assemble, List.isEmpty_eq_false_iff.mpr hne, List.isEmpty_eq_false_iff.mpr hne', hd]
  | some d =>
    rw [assemble_eq a hne hd, complete] at h ⊢
    rw [assemble_eq a hne' hd, complete_append]
    cases hrun : (a.run kind d 0 none xs).result with
    | error e' => rw [Noted.andThen_of_error hrun, Noted.andThen_of_error hrun]
    | ok s =>
      rw [Noted.andThen_of_ok hrun] at h
      -- past the run only the check for a root can fail
      cases s with
      | some entity => cases h
      | none =>
        simp only [close] at h
        cases hm : a.mode with
        | strict =>
          rw [hm] at h
          cases h
          exact absurd rfl he
        | lenient =>
          rw [hm] at h
          cases h

end Checkpoint

section OneRoot

/-- What a step without an entity takes, other than a root, is unknown or direct. -/
theorem ruleOf?_of_not_begun {position : Nat} {raw : Value}
    (h : (a.step kind d position none raw).result = .ok none) (parent path : Path) (m : Matcher) :
    d.ruleOf? raw ≠ some (.indexed parent path m) := by
  intro hindexed
  obtain ⟨f, hf, ⟨hnone, -⟩ | ⟨rule, effect, hrule, hplace, -⟩⟩ := step_ok a h
  · rw [Descriptor.ruleOf?_of_parse hf, hnone] at hindexed
    cases hindexed
  · rw [Descriptor.ruleOf?_of_parse hf, hrule] at hindexed
    cases hindexed
    cases hplace

/-- Until there is an entity no indexed fragment gets through. -/
theorem ruleOf?_of_run_not_begun {position : Nat} {fragments : List Value}
    (h : (a.run kind d position none fragments).result = .ok none) :
    ∀ raw ∈ fragments, ∀ parent path m, d.ruleOf? raw ≠ some (.indexed parent path m) := by
  induction fragments generalizing position with
  | nil => exact fun raw hraw => absurd hraw List.not_mem_nil
  | cons raw rest ih =>
    obtain ⟨s, hs, h⟩ := (run_cons_ok a).mp h
    cases s with
    | some entity =>
      obtain ⟨⟨entity', hentity⟩, -⟩ := run_of_begun a h
      cases hentity
    | none => exact List.forall_mem_cons.mpr ⟨ruleOf?_of_not_begun hs, ih h⟩

theorem countP_isRoot_of_begun {position : Nat} {entity : Value} {t : Option Value}
    {fragments : List Value}
    (h : (a.run kind d position (some entity) fragments).result = .ok t) :
    fragments.countP d.isRoot = 0 := by
  rw [List.countP_eq_zero]
  intro raw hraw hroot
  obtain ⟨payload, hpayload⟩ := Descriptor.isRoot_iff_roots.mp hroot
  exact (run_of_begun a h).2 raw hraw payload hpayload

/-- A run that gets to its end had one root if it has an entity, and none if not. -/
theorem countP_isRoot_of_run {position : Nat} {t : Option Value} {fragments : List Value}
    (h : (a.run kind d position none fragments).result = .ok t) :
    fragments.countP d.isRoot = if t.isSome then 1 else 0 := by
  induction fragments generalizing position with
  | nil =>
    cases h
    rfl
  | cons raw rest ih =>
    obtain ⟨s, hs, h⟩ := (run_cons_ok a).mp h
    obtain ⟨payload, hroot, rfl⟩ | ⟨rfl, hnot⟩ := step_of_not_begun a hs
    · have hraw : d.isRoot raw = true := Descriptor.isRoot_iff_roots.mpr ⟨payload, hroot⟩
      obtain ⟨⟨entity, rfl⟩, -⟩ := run_of_begun a h
      rw [List.countP_cons_of_pos hraw, countP_isRoot_of_begun h]
      rfl
    · have hraw : ¬ d.isRoot raw = true := fun hroot =>
        not_exists.mpr hnot (Descriptor.isRoot_iff_roots.mp hroot)
      rw [List.countP_cons_of_neg hraw]
      exact ih h

/-- A run is at its root without an entity, and goes on from there as if it began there. -/
theorem run_from_root {fragments : List Value} {t : Option Value} {n : Nat} {root : Value}
    (h : (a.run kind d 0 none fragments).result = .ok t) (hn : fragments[n]? = some root)
    (hroot : d.isRoot root = true) :
    a.stateAfter kind d fragments n = .ok none ∧
      (a.run kind d 0 none (fragments.drop n)).result = .ok t := by
  rw [← List.take_append_drop n fragments] at h
  obtain ⟨s, hs, h⟩ := run_append_ok.mp h
  have hdrop : fragments.drop n = root :: fragments.drop (n + 1) := by
    obtain ⟨hlt, rfl⟩ := List.getElem?_eq_some_iff.mp hn
    exact List.drop_eq_getElem_cons hlt
  cases s with
  | some entity =>
    rw [hdrop] at h
    obtain ⟨payload, hpayload⟩ := Descriptor.isRoot_iff_roots.mp hroot
    exact absurd hpayload ((run_of_begun a h).2 root List.mem_cons_self payload)
  | none =>
    refine ⟨hs, ?_⟩
    have hwarned := warned_run_position a kind d 0 (0 + (fragments.take n).length) none
      (fragments.drop n)
    exact (congrArg Noted.result hwarned).trans h

/-- Without an entity an assembly succeeds in lenient mode only. -/
theorem mode_of_assemble_none {fragments : List Value} (hne : fragments ≠ [])
    (hd : a.registry.descriptor? kind = some d)
    (h : (a.assemble kind fragments).result = .ok none) : a.mode = .lenient := by
  have hrun := run_of_assemble a hd h
  rw [assemble_eq a hne hd, complete, Noted.andThen_of_ok hrun] at h
  cases hm : a.mode with
  | lenient => rfl
  | strict =>
    simp only [close, hm] at h
    cases h

theorem assemble_of_run_some {fragments : List Value} {entity : Value}
    (hd : a.registry.descriptor? kind = some d)
    (h : (a.run kind d 0 none fragments).result = .ok (some entity)) :
    (a.assemble kind fragments).result = .ok (some entity) := by
  have hne : fragments ≠ [] := by
    rintro rfl
    cases h
  rw [assemble_eq a hne hd, complete, Noted.andThen_of_ok h]
  rfl

end OneRoot

end Assembler

/-- The entity an assembly came to, delivered as a root, takes the place of the fragments before
it: the rest has the same result, and the warnings of both parts together are the same. An assembly
that failed for anything but a missing root is not changed by what comes after it. -/
theorem assemble_checkpoint (a : Assembler) (kind : EntityKind) (xs ys : List Value) :
    (∀ entity key, (a.assemble kind xs).result = .ok (some entity) →
      a.registry.lookup? kind key = some .root →
      let resumed := a.assemble kind (.object [(key, entity)] :: ys)
      (a.assemble kind (xs ++ ys)).result = resumed.result ∧
        (a.assemble kind (xs ++ ys)).warnings
          = (a.assemble kind xs).warnings ++ resumed.warnings) ∧
    ∀ e, (a.assemble kind xs).result = .error e → e ≠ .missingRoot →
      (a.assemble kind (xs ++ ys)).result = .error e ∧
        (a.assemble kind (xs ++ ys)).warnings = (a.assemble kind xs).warnings := by
  constructor
  · intro entity key h hroot resumed
    obtain ⟨d, hd, hroot⟩ := Option.bind_eq_some_iff.mp hroot
    have hresumed : resumed.warned
        = (a.complete kind d xs.length (some entity) ys).warned := by
      change (a.assemble kind (.object [(key, entity)] :: ys)).warned = _
      rw [a.assemble_eq (List.cons_ne_nil _ ys) hd]
      exact Assembler.warned_complete_root hroot 0 xs.length entity ys
    have hwhole : (a.assemble kind (xs ++ ys)).warned = _ :=
      Assembler.warned_assemble_append hd h ys
    have hresult := congrArg Noted.result hresumed
    have hwarnings := congrArg Noted.notes hresumed
    constructor
    · exact (congrArg Noted.result hwhole).trans hresult.symm
    · rw [show resumed.warnings = _ from hwarnings]
      exact congrArg Noted.notes hwhole
  · intro e h he
    rw [Assembler.assemble_append_of_error h he ys]
    exact ⟨h, rfl⟩

/-- A checkpoint between two deliveries of an artist; and a second release, after which an
assembly stays failed. -/
theorem assemble_checkpoint_artists :
    let a : Assembler := ⟨.builtin, .lenient, .passThrough⟩
    let artist := Value.object [("artist", .object [("id", .ofInt 5)])]
    let release := Value.object [("albumRelease", .object [("primaryArtists", .array [.ofInt 5])])]
    let again := Value.object
      [("albumRelease", .object [("primaryArtists", .array [.object [("id", .ofInt 5)]])])]
    (a.assemble .albumRelease ([artist, release, artist] ++ [artist])).result
        = (a.assemble .albumRelease [again, artist]).result ∧
      (a.assemble .albumRelease ([release, release] ++ [artist])).result
        = .error (.duplicateRoot "albumRelease") := by
  intro a artist release again
  have hfirst := (assemble_checkpoint a .albumRelease [artist, release, artist] [artist]).1
    (.object [("primaryArtists", .array [.object [("id", .ofInt 5)]])]) "albumRelease" rfl rfl
  have hsecond := (assemble_checkpoint a .albumRelease [release, release] [artist]).2
    (.duplicateRoot "albumRelease") rfl nofun
  exact ⟨hfirst.1, hsecond.1⟩

/-- An assembly that succeeds has one root if it comes to an entity and none if it does not, which
only lenient mode accepts; with more roots it fails. What comes before the root is not indexed, and
without it the result is the same. -/
theorem assemble_one_root (a : Assembler) (kind : EntityKind) {d : Descriptor}
    (hd : a.registry.descriptor? kind = some d) {fragments : List Value} (hne : fragments ≠ []) :
    (∀ r, (a.assemble kind fragments).result = .ok r →
      (r.isSome = true ↔ fragments.countP d.isRoot = 1) ∧
      (r = none ↔ fragments.countP d.isRoot = 0) ∧ (r = none → a.mode = .lenient)) ∧
    (2 ≤ fragments.countP d.isRoot → ∃ e, (a.assemble kind fragments).result = .error e) ∧
    ∀ r n root, (a.assemble kind fragments).result = .ok r → fragments[n]? = some root →
      d.isRoot root = true →
      (∀ raw ∈ fragments.take n, ∀ parent path m, d.ruleOf? raw ≠ some (.indexed parent path m)) ∧
      (a.assemble kind (fragments.drop n)).result = .ok r := by
  have hcount : ∀ r, (a.assemble kind fragments).result = .ok r →
      fragments.countP d.isRoot = if r.isSome then 1 else 0 :=
    fun r h => Assembler.countP_isRoot_of_run (a.run_of_assemble hd h)
  refine ⟨?_, ?_, ?_⟩
  · intro r h
    rw [hcount r h]
    cases r with
    | none => simpa using Assembler.mode_of_assemble_none hne hd h
    | some entity => simp
  · intro hroots
    cases h : (a.assemble kind fragments).result with
    | error e => exact ⟨e, rfl⟩
    | ok r =>
      have hle : fragments.countP d.isRoot ≤ 1 := by
        rw [hcount r h]
        split <;> omega
      omega
  · intro r n root h hn hroot
    have hrun := a.run_of_assemble hd h
    obtain ⟨hbefore, hfrom⟩ := Assembler.run_from_root hrun hn hroot
    refine ⟨Assembler.ruleOf?_of_run_not_begun hbefore, ?_⟩
    cases r with
    | some entity => exact Assembler.assemble_of_run_some hd hfrom
    | none =>
      have hzero := hcount none h
      have hmem : root ∈ fragments := List.mem_of_getElem? hn
      exact absurd hroot (List.countP_eq_zero.mp hzero root hmem)

/-- A null payload is an entity as well: what comes before its root does not count. -/
theorem assemble_one_root_null :
    let a : Assembler := ⟨.builtin, .strict, .passThrough⟩
    let artist := Value.object [("artist", .object [("id", .ofInt 5)])]
    let release := Value.object [("albumRelease", .null)]
    [artist, release, artist].countP (Descriptor.isRoot ⟨Registry.albumReleaseRules⟩) = 1 ∧
      (a.assemble .albumRelease [release, artist]).result = .ok (some .null) := by
  intro a artist release
  obtain ⟨hcount, -, hfrom⟩ := assemble_one_root a .albumRelease
    (d := ⟨Registry.albumReleaseRules⟩) rfl (List.cons_ne_nil artist [release, artist])
  have h : (a.assemble .albumRelease [artist, release, artist]).result = .ok (some .null) := rfl
  exact ⟨(hcount _ h).1.mp rfl, (hfrom _ 1 release h rfl rfl).2⟩

end CatalogAssembly
