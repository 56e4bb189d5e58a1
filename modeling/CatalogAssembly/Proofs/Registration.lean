import CatalogAssembly.Proofs.PathText
import CatalogAssembly.Schema.Registry

/-!
# Registering entity kinds

Drafts are acceptable when at most one of them is a root, their texts are read as paths
and their keys differ. A kind that is not registered yet is registered by acceptable
drafts and by no others; its descriptor then holds the rules of the drafts and nothing
else. Drafts that are not acceptable leave the registry as it is, with the error of the
first draft that does not go with the ones before it. What was registered by any sequence
of attempts is thus what the first acceptable drafts of each kind describe:
`construct_exact`.
-/
namespace CatalogAssembly

namespace RuleDraft

def isRoot : RuleDraft → Bool
  | .root => true
  | _ => false

/-- The texts that have to be read as paths, in the order in which they are read. -/
def texts : RuleDraft → List String
  | .root => []
  | .direct path => [path]
  | .indexed parent path _ => [parent, path]

/-- The rule that a draft stands for. -/
inductive Describes : RuleDraft → Rule → Prop
  | root : Describes .root .root
  | direct {text : String} {p : Path} (h : Path.parse text = .ok p) :
      Describes (.direct text) (.direct p)
  | indexed {parentText text : String} {parent p : Path} {m : Matcher}
      (hparent : Path.parse parentText = .ok parent) (h : Path.parse text = .ok p) :
      Describes (.indexed parentText text m) (.indexed parent p m)

/-- What is wrong with a draft after others, its key apart. -/
inductive Faulty (kind : EntityKind) (before : List (String × RuleDraft)) :
    RuleDraft → SchemaError → Prop
  | secondRoot (h : ∃ d ∈ before, d.2.isRoot = true) :
      Faulty kind before .root (.multipleRoots kind)
  | direct {text : String} {fault : PathFault} (h : Path.parse text = .error fault) :
      Faulty kind before (.direct text) (.invalidPath text fault)
  | parent {parentText text : String} {m : Matcher} {fault : PathFault}
      (h : Path.parse parentText = .error fault) :
      Faulty kind before (.indexed parentText text m) (.invalidPath parentText fault)
  | path {parentText text : String} {parent : Path} {m : Matcher} {fault : PathFault}
      (hparent : Path.parse parentText = .ok parent) (h : Path.parse text = .error fault) :
      Faulty kind before (.indexed parentText text m) (.invalidPath text fault)

end RuleDraft

/-- A draft that does not go with the ones before it; a repeated key counts last. -/
inductive Breaks (kind : EntityKind) (before : List (String × RuleDraft)) :
    String × RuleDraft → SchemaError → Prop
  | faulty {key : String} {draft : RuleDraft} {e : SchemaError} (h : draft.Faulty kind before e) :
      Breaks kind before (key, draft) e
  | repeated {key : String} {draft : RuleDraft} (hsound : ∀ e, ¬ draft.Faulty kind before e)
      (hkey : key ∈ before.map (·.1)) :
      Breaks kind before (key, draft) (.duplicateFragment kind key)

/-- Drafts from which a kind can be registered. -/
structure Acceptable (drafts : List (String × RuleDraft)) : Prop where
  oneRoot : drafts.countP (·.2.isRoot) ≤ 1
  readable : ∀ draft ∈ drafts, ∀ text ∈ draft.2.texts, ∃ p, Path.parse text = .ok p
  keys : (drafts.map (·.1)).Nodup

/-- The first draft that breaks a condition, behind acceptable ones. -/
def FirstFault (kind : EntityKind) (before drafts : List (String × RuleDraft)) (e : SchemaError) :
    Prop :=
  ∃ good draft rest, drafts = good ++ draft :: rest ∧ Acceptable (before ++ good) ∧
    Breaks kind (before ++ good) draft e

/-- Rules in the order of their drafts. -/
inductive Drafted : List (String × RuleDraft) → List (String × Rule) → Prop
  | nil : Drafted [] []
  | cons {key : String} {draft : RuleDraft} {rule : Rule} {drafts : List (String × RuleDraft)}
      {rules : List (String × Rule)} (h : draft.Describes rule) (rest : Drafted drafts rules) :
      Drafted ((key, draft) :: drafts) ((key, rule) :: rules)

section First

variable {α : Type} {before xs : List α} {x : α} (good : List α → Prop)
  (bad : List α → α → Prop)

theorem not_exists_first_nil : ¬ ∃ front first rest, [] = front ++ first :: rest ∧
    good (before ++ front) ∧ bad (before ++ front) first := by
  rintro ⟨front, first, rest, h, -⟩
  exact List.append_ne_nil_of_right_ne_nil front (List.cons_ne_nil first rest) h.symm

/-- The first bad element behind good ones is the next one, or it is found behind that. -/
theorem exists_first_cons_iff (hgood : ∀ {xs ys}, good (xs ++ ys) → good xs)
    (hbefore : good before) :
    (∃ front first rest, x :: xs = front ++ first :: rest ∧
      good (before ++ front) ∧ bad (before ++ front) first) ↔
    bad before x ∨ (good (before ++ [x]) ∧ ∃ front first rest, xs = front ++ first :: rest ∧
      good (before ++ [x] ++ front) ∧ bad (before ++ [x] ++ front) first) := by
  constructor
  · rintro ⟨front, first, rest, hxs, hfront, hbad⟩
    cases front with
    | nil =>
      obtain ⟨rfl, rfl⟩ := List.cons.inj hxs
      rw [List.append_nil] at hbad
      exact .inl hbad
    | cons y front =>
      obtain ⟨rfl, rfl⟩ := List.cons.inj hxs
      rw [List.append_cons] at hfront hbad
      exact .inr ⟨hgood hfront, front, first, rest, rfl, hfront, hbad⟩
  · rintro (hbad | ⟨-, front, first, rest, rfl, hfront, hbad⟩)
    · exact ⟨[], x, xs, rfl, by rwa [List.append_nil], by rwa [List.append_nil]⟩
    · rw [← List.append_cons] at hfront hbad
      exact ⟨x :: front, first, rest, rfl, hfront, hbad⟩

theorem not_of_exists_first (hgood : ∀ {xs ys}, good (xs ++ ys) → good xs)
    (hbad : ∀ front, ∀ x ∈ xs, bad front x → ¬ good (front ++ [x]))
    (h : ∃ front first rest, xs = front ++ first :: rest ∧
      good (before ++ front) ∧ bad (before ++ front) first) :
    ¬ good (before ++ xs) := by
  obtain ⟨front, first, rest, rfl, -, hfirst⟩ := h
  intro h
  rw [List.append_cons, ← List.append_assoc, ← List.append_assoc] at h
  exact hbad _ first (by simp) hfirst (hgood h)

end First

section Drafts

variable {kind : EntityKind} {key : String} {draft : RuleDraft} {rule : Rule} {e : SchemaError}
  {before drafts more : List (String × RuleDraft)} {rules : List (String × Rule)}

theorem RuleDraft.Describes.isRoot_eq (h : draft.Describes rule) : rule.isRoot = draft.isRoot := by
  cases h <;> rfl

theorem RuleDraft.Describes.readable (h : draft.Describes rule) :
    ∀ text ∈ draft.texts, ∃ p, Path.parse text = .ok p := by
  cases h with
  | root => exact fun _ hmem => absurd hmem List.not_mem_nil
  | direct h => exact List.forall_mem_singleton.mpr ⟨_, h⟩
  | indexed hparent h =>
    exact List.forall_mem_cons.mpr ⟨⟨_, hparent⟩, List.forall_mem_singleton.mpr ⟨_, h⟩⟩

theorem Acceptable.nil : Acceptable [] :=
  ⟨Nat.zero_le 1, fun _ hmem => absurd hmem List.not_mem_nil, List.nodup_nil⟩

theorem Acceptable.of_append (h : Acceptable (drafts ++ more)) : Acceptable drafts where
  oneRoot := by
    have hcount := h.oneRoot
    rw [List.countP_append] at hcount
    omega
  readable draft hmem := h.readable draft (List.mem_append_left more hmem)
  keys := by
    have hkeys := h.keys
    rw [List.map_append, List.nodup_append] at hkeys
    exact hkeys.1

/-- One more draft is acceptable when it goes with the ones before it. -/
theorem acceptable_concat_iff :
    Acceptable (before ++ [(key, draft)]) ↔
      Acceptable before ∧ (draft.isRoot = true → ∀ d ∈ before, d.2.isRoot = false) ∧
        (∀ text ∈ draft.texts, ∃ p, Path.parse text = .ok p) ∧ key ∉ before.map (·.1) := by
  constructor
  · intro h
    refine ⟨h.of_append, ?_, h.readable (key, draft) (by simp), ?_⟩
    · intro hroot d hmem
      have hcount := h.oneRoot
      rw [List.countP_append, List.countP_singleton, if_pos hroot] at hcount
      have hzero : before.countP (·.2.isRoot) = 0 := by omega
      exact Bool.not_eq_true _ ▸ List.countP_eq_zero.mp hzero d hmem
    · intro hmem
      have hkeys := h.keys
      rw [List.map_append, List.nodup_append] at hkeys
      exact hkeys.2.2 key hmem key (by simp) rfl
  · rintro ⟨h, hroots, hreadable, hkey⟩
    refine ⟨?_, ?_, ?_⟩
    · rw [List.countP_append, List.countP_singleton]
      by_cases hroot : draft.isRoot = true
      · have hzero : before.countP (·.2.isRoot) = 0 :=
          List.countP_eq_zero.mpr fun d hmem => by simp [hroots hroot d hmem]
        simp [hzero, hroot]
      · rw [if_neg hroot]
        exact h.oneRoot
    · rw [List.forall_mem_append]
      exact ⟨h.readable, List.forall_mem_singleton.mpr hreadable⟩
    · rw [List.map_append, List.nodup_append]
      refine ⟨h.keys, by simp, ?_⟩
      intro a ha b hb hab
      rw [List.map_singleton, List.mem_singleton] at hb
      rw [hab, hb] at ha
      exact hkey ha

theorem RuleDraft.Faulty.not_acceptable (h : draft.Faulty kind before e) :
    ¬ Acceptable (before ++ [(key, draft)]) := by
  rw [acceptable_concat_iff]
  rintro ⟨-, hroots, hreadable, -⟩
  cases h with
  | secondRoot h =>
    obtain ⟨d, hmem, hroot⟩ := h
    rw [hroots rfl d hmem] at hroot
    cases hroot
  | direct h =>
    obtain ⟨p, hp⟩ := hreadable _ List.mem_cons_self
    rw [h] at hp
    cases hp
  | parent h =>
    obtain ⟨p, hp⟩ := hreadable _ List.mem_cons_self
    rw [h] at hp
    cases hp
  | path _ h =>
    obtain ⟨p, hp⟩ := hreadable _ (List.mem_cons_of_mem _ List.mem_cons_self)
    rw [h] at hp
    cases hp

theorem Breaks.not_acceptable {draft : String × RuleDraft} (h : Breaks kind before draft e) :
    ¬ Acceptable (before ++ [draft]) := by
  cases h with
  | faulty h => exact h.not_acceptable
  | repeated _ hkey =>
    rw [acceptable_concat_iff]
    exact fun h => h.2.2.2 hkey

theorem not_firstFault_nil : ¬ FirstFault kind before [] e :=
  not_exists_first_nil Acceptable fun before draft => Breaks kind before draft e

theorem firstFault_cons_iff {draft : String × RuleDraft} (hbefore : Acceptable before) :
    FirstFault kind before (draft :: drafts) e ↔
      Breaks kind before draft e ∨
        (Acceptable (before ++ [draft]) ∧ FirstFault kind (before ++ [draft]) drafts e) :=
  exists_first_cons_iff Acceptable (fun before draft => Breaks kind before draft e)
    Acceptable.of_append hbefore

end Drafts

section Reading

variable {kind : EntityKind} {key : String} {draft : RuleDraft} {rule : Rule} {e : SchemaError}
  {before drafts : List (String × RuleDraft)} {known rules : List (String × Rule)}

theorem Drafted.append {drafts' : List (String × RuleDraft)} {rules' : List (String × Rule)}
    (h : Drafted drafts rules) (h' : Drafted drafts' rules') :
    Drafted (drafts ++ drafts') (rules ++ rules') := by
  induction h with
  | nil => exact h'
  | cons hrule _ ih => exact .cons hrule ih

theorem Drafted.keys (h : Drafted drafts rules) : rules.map (·.1) = drafts.map (·.1) := by
  induction h with
  | nil => rfl
  | cons _ _ ih => simp [ih]

theorem Drafted.length_eq (h : Drafted drafts rules) : rules.length = drafts.length := by
  simpa using congrArg List.length h.keys

theorem Drafted.any_isRoot (h : Drafted drafts rules) :
    rules.any (·.2.isRoot) = drafts.any (·.2.isRoot) := by
  induction h with
  | nil => rfl
  | cons hrule _ ih => simp [ih, hrule.isRoot_eq]

theorem Drafted.countP_isRoot (h : Drafted drafts rules) :
    rules.countP (·.2.isRoot) = drafts.countP (·.2.isRoot) := by
  induction h with
  | nil => rfl
  | cons hrule _ ih => simp [List.countP_cons, ih, hrule.isRoot_eq]

theorem bind_eq_error_iff {ε α β : Type} {r : Except ε α} {next : α → Except ε β} {e : ε} :
    (r >>= next) = .error e ↔ r = .error e ∨ ∃ x, r = .ok x ∧ next x = .error e := by
  cases r with
  | error e' => simp [bind, Except.bind]
  | ok x => simp [bind, Except.bind]

/-- A draft gives the rule it stands for, unless it is a root behind another one. -/
theorem rule_eq_ok_iff (hknown : Drafted before known) :
    draft.rule kind known = .ok rule ↔
      draft.Describes rule ∧ (draft.isRoot = true → ∀ d ∈ before, d.2.isRoot = false) := by
  cases draft with
  | root =>
    simp only [RuleDraft.rule, hknown.any_isRoot]
    cases hroot : before.any (·.2.isRoot) with
    | true =>
      obtain ⟨d, hmem, hd⟩ := List.any_eq_true.mp hroot
      constructor
      · exact nofun
      · rintro ⟨-, hnone⟩
        rw [hnone rfl d hmem] at hd
        cases hd
    | false =>
      have hnone : ∀ d ∈ before, d.2.isRoot = false := by simpa using hroot
      constructor
      · intro h
        cases h
        exact ⟨.root, fun _ => hnone⟩
      · rintro ⟨h, -⟩
        cases h
        rfl
  | direct text =>
    simp only [RuleDraft.rule, Path.bind_eq_ok_iff, readPath_eq_ok_iff, Except.ok.injEq]
    constructor
    · rintro ⟨p, hp, rfl⟩
      exact ⟨.direct hp, nofun⟩
    · rintro ⟨h, -⟩
      cases h with
      | direct hp => exact ⟨_, hp, rfl⟩
  | indexed parentText text m =>
    simp only [RuleDraft.rule, Path.bind_eq_ok_iff, readPath_eq_ok_iff, Except.ok.injEq]
    constructor
    · rintro ⟨parent, hparent, p, hp, rfl⟩
      exact ⟨.indexed hparent hp, nofun⟩
    · rintro ⟨h, -⟩
      cases h with
      | indexed hparent hp => exact ⟨_, hparent, _, hp, rfl⟩

/-- It is refused for the first thing that is wrong with it. -/
theorem rule_eq_error_iff (hknown : Drafted before known) :
    draft.rule kind known = .error e ↔ draft.Faulty kind before e := by
  cases draft with
  | root =>
    simp only [RuleDraft.rule, hknown.any_isRoot]
    cases hroot : before.any (·.2.isRoot) with
    | true =>
      constructor
      · intro h
        cases h
        exact .secondRoot (List.any_eq_true.mp hroot)
      · intro h
        cases h
        rfl
    | false =>
      constructor
      · exact nofun
      · intro h
        cases h with
        | secondRoot h =>
          rw [List.any_eq_true.mpr h] at hroot
          cases hroot
  | direct text =>
    simp only [RuleDraft.rule, bind_eq_error_iff, readPath_eq_error_iff, reduceCtorEq, and_false,
      exists_false, or_false]
    constructor
    · rintro ⟨fault, h, rfl⟩
      exact .direct h
    · intro h
      cases h with
      | direct h => exact ⟨_, h, rfl⟩
  | indexed parentText text m =>
    simp only [RuleDraft.rule, bind_eq_error_iff, readPath_eq_error_iff, readPath_eq_ok_iff,
      reduceCtorEq, and_false, exists_false, or_false]
    constructor
    · rintro (⟨fault, h, rfl⟩ | ⟨parent, hparent, fault, h, rfl⟩)
      · exact .parent h
      · exact .path hparent h
    · intro h
      cases h with
      | parent h => exact .inl ⟨_, h, rfl⟩
      | path hparent h => exact .inr ⟨_, hparent, _, h, rfl⟩

theorem RuleDraft.Describes.unique {rule' : Rule} (h : draft.Describes rule)
    (h' : draft.Describes rule') : rule = rule' := by
  cases h with
  | root =>
    cases h'
    rfl
  | direct hp =>
    cases h' with
    | direct hp' =>
      cases hp.symm.trans hp'
      rfl
  | indexed hparent hp =>
    cases h' with
    | indexed hparent' hp' =>
      cases hparent.symm.trans hparent'
      cases hp.symm.trans hp'
      rfl

/-- The first of some drafts is taken when it goes with the ones before it, and otherwise ends the
reading with what it breaks. -/
theorem readRules_cons_cases (hknown : Drafted before known) (hbefore : Acceptable before)
    (key : String) (draft : RuleDraft) :
    (Acceptable (before ++ [(key, draft)]) ∧ ∃ rule, draft.Describes rule ∧ ∀ drafts,
      readRules kind known ((key, draft) :: drafts)
        = readRules kind (known ++ [(key, rule)]) drafts) ∨
    (¬ Acceptable (before ++ [(key, draft)]) ∧ ∃ e,
      (∀ e', Breaks kind before (key, draft) e' ↔ e = e') ∧ ∀ drafts,
      readRules kind known ((key, draft) :: drafts) = .error e) := by
  cases hrule : draft.rule kind known with
  | error e =>
    have hfaulty : draft.Faulty kind before e := (rule_eq_error_iff hknown).mp hrule
    refine .inr ⟨hfaulty.not_acceptable, e, fun e' => ⟨fun h => ?_, ?_⟩, fun drafts => ?_⟩
    · cases h with
      | faulty h => exact Except.error.inj (hrule.symm.trans ((rule_eq_error_iff hknown).mpr h))
      | repeated hsound _ => exact absurd hfaulty (hsound e)
    · rintro rfl
      exact .faulty hfaulty
    · rw [readRules, hrule]
      rfl
  | ok rule =>
    obtain ⟨hdescribes, hroots⟩ := (rule_eq_ok_iff hknown).mp hrule
    have hsound : ∀ e, ¬ draft.Faulty kind before e := by
      intro e h
      cases hrule.symm.trans ((rule_eq_error_iff hknown).mpr h)
    have hmem : known.any (·.1 == key) = true ↔ key ∈ before.map (·.1) := by
      rw [← hknown.keys, List.any_eq_true, List.mem_map]
      simp only [beq_iff_eq]
    by_cases hkey : key ∈ before.map (·.1)
    · refine .inr ⟨fun h => (acceptable_concat_iff.mp h).2.2.2 hkey, .duplicateFragment kind key,
        fun e' => ⟨fun h => ?_, ?_⟩, fun drafts => ?_⟩
      · cases h with
        | faulty h => exact absurd h (hsound e')
        | repeated => rfl
      · rintro rfl
        exact .repeated hsound hkey
      · rw [readRules, hrule]
        exact if_pos (hmem.mpr hkey)
    · refine .inl ⟨acceptable_concat_iff.mpr ⟨hbefore, hroots, hdescribes.readable, hkey⟩, rule,
        hdescribes, fun drafts => ?_⟩
      rw [readRules, hrule]
      exact if_neg fun h => hkey (hmem.mp h)

/-- Drafts behind others are read to their rules when all of them are acceptable together, and up
to the first fault otherwise. -/
theorem readRules_outcome (kind : EntityKind) (drafts : List (String × RuleDraft))
    (hknown : Drafted before known) (hbefore : Acceptable before) :
    (∀ rules, readRules kind known drafts = .ok rules ↔
      Acceptable (before ++ drafts) ∧ ∃ more, rules = known ++ more ∧ Drafted drafts more) ∧
    ∀ e, readRules kind known drafts = .error e ↔ FirstFault kind before drafts e := by
  induction drafts generalizing before known with
  | nil =>
    constructor
    · intro rules
      rw [readRules, List.append_nil]
      constructor
      · intro h
        cases h
        exact ⟨hbefore, [], (List.append_nil known).symm, .nil⟩
      · rintro ⟨-, more, rfl, hmore⟩
        cases hmore
        rw [List.append_nil]
    · intro e
      exact ⟨nofun, fun h => absurd h not_firstFault_nil⟩
  | cons d drafts ih =>
    obtain ⟨key, draft⟩ := d
    simp only [firstFault_cons_iff hbefore]
    rw [List.append_cons before (key, draft) drafts]
    obtain ⟨hgood, rule, hrule, hread⟩ | ⟨hbad, e, hbreaks, hread⟩ :=
      readRules_cons_cases hknown hbefore key draft
    · obtain ⟨hok, herror⟩ := ih (hknown.append (.cons hrule .nil)) hgood
      rw [hread]
      constructor
      · intro rules
        rw [hok]
        refine and_congr_right fun _ => ⟨?_, ?_⟩
        · rintro ⟨more, rfl, hmore⟩
          exact ⟨_, (List.append_cons ..).symm, .cons hrule hmore⟩
        · rintro ⟨_, rfl, hmore⟩
          cases hmore with
          | cons hrule' hmore =>
            rw [hrule'.unique hrule]
            exact ⟨_, List.append_cons .., hmore⟩
      · intro e
        rw [herror]
        exact ⟨fun h => .inr ⟨hgood, h⟩,
          fun h => h.elim (fun hbreaks => absurd hgood hbreaks.not_acceptable) And.right⟩
    · rw [hread]
      constructor
      · intro rules
        exact ⟨nofun, fun h => absurd h.1.of_append hbad⟩
      · intro e'
        rw [hbreaks, Except.error.injEq]
        exact ⟨.inl, fun h => h.resolve_right fun h => hbad h.1⟩

theorem FirstFault.not_acceptable (h : FirstFault kind before drafts e) :
    ¬ Acceptable (before ++ drafts) :=
  not_of_exists_first Acceptable (fun before draft => Breaks kind before draft e)
    Acceptable.of_append (fun _ _ _ => Breaks.not_acceptable) h

theorem Drafted.unique {rules' : List (String × Rule)} (h : Drafted drafts rules)
    (h' : Drafted drafts rules') : rules = rules' := by
  induction h generalizing rules' with
  | nil =>
    cases h'
    rfl
  | cons hrule _ ih =>
    cases h' with
    | cons hrule' hrest' => rw [hrule.unique hrule', ih hrest']

/-- Under a key stands the rule that was drafted for it, and under no other key is there one. -/
theorem Drafted.lookup_eq_some_iff (h : Drafted drafts rules)
    (hkeys : (drafts.map (·.1)).Nodup) :
    rules.lookup key = some rule ↔ ∃ draft, (key, draft) ∈ drafts ∧ draft.Describes rule := by
  induction h with
  | nil => simp
  | @cons first draft rule' drafts rules hrule hrest ih =>
    rw [List.map_cons, List.nodup_cons] at hkeys
    by_cases hkey : key = first
    · subst hkey
      rw [List.lookup_cons_self, Option.some.injEq]
      constructor
      · rintro rfl
        exact ⟨draft, List.mem_cons_self, hrule⟩
      · rintro ⟨other, hmem, hother⟩
        rcases List.mem_cons.mp hmem with heq | hmem
        · cases heq
          exact hrule.unique hother
        · exact absurd (List.mem_map_of_mem hmem) hkeys.1
    · rw [List.lookup_cons, beq_eq_false_iff_ne.mpr hkey, ih hkeys.2]
      simp [hkey]

theorem Drafted.mem {entry : String × Rule} (h : Drafted drafts rules) (hmem : entry ∈ rules) :
    ∃ draft : RuleDraft, draft.Describes entry.2 := by
  induction h with
  | nil => cases hmem
  | cons hrule _ ih =>
    rcases List.mem_cons.mp hmem with rfl | hmem
    · exact ⟨_, hrule⟩
    · exact ih hmem

end Reading

/-- The paths of a rule. -/
def Rule.paths : Rule → List Path
  | .root => []
  | .direct path => [path]
  | .indexed parent path _ => [parent, path]

theorem RuleDraft.Describes.paths_ne_nil {draft : RuleDraft} {rule : Rule}
    (h : draft.Describes rule) : ∀ p ∈ rule.paths, p ≠ [] := by
  cases h with
  | root => exact fun _ hmem => absurd hmem List.not_mem_nil
  | direct hp => exact List.forall_mem_singleton.mpr (Path.readable_of_parse hp).nonempty
  | indexed hparent hp =>
    exact List.forall_mem_cons.mpr ⟨(Path.readable_of_parse hparent).nonempty,
      List.forall_mem_singleton.mpr (Path.readable_of_parse hp).nonempty⟩

/-- What holds of every descriptor that was built. -/
structure Descriptor.Sound (d : Descriptor) : Prop where
  oneRoot : d.rules.countP (·.2.isRoot) ≤ 1
  keys : (d.rules.map (·.1)).Nodup
  paths : ∀ entry ∈ d.rules, ∀ p ∈ entry.2.paths, p ≠ []

theorem Drafted.sound {drafts : List (String × RuleDraft)} {d : Descriptor}
    (h : Drafted drafts d.rules) (hdrafts : Acceptable drafts) : d.Sound where
  oneRoot := h.countP_isRoot ▸ hdrafts.oneRoot
  keys := h.keys ▸ hdrafts.keys
  paths entry hmem := by
    obtain ⟨draft, hdraft⟩ := h.mem hmem
    exact hdraft.paths_ne_nil

namespace Registry

/-- A kind and the drafts of its rules. -/
abbrev Attempt := EntityKind × List (String × RuleDraft)

/-- Attempts one after the other, each of which may fail. -/
def attempts (r : Registry) (steps : List Attempt) : Registry :=
  steps.foldl (fun r step => (r.attempt step.1 step.2).1) r

def construct (steps : List Attempt) : Registry := empty.attempts steps

/-- The first acceptable drafts of a kind. -/
def FirstAcceptable (kind : EntityKind) (steps : List Attempt)
    (drafts : List (String × RuleDraft)) : Prop :=
  ∃ before after, steps = before ++ (kind, drafts) :: after ∧
    (∀ earlier, (kind, earlier) ∈ before → ¬ Acceptable earlier) ∧ Acceptable drafts

section Attempt

variable (r : Registry) (kind : EntityKind) (drafts : List (String × RuleDraft))

/-- Registering is an attempt whose registry is given up when it fails. -/
theorem register_eq_error_iff {e : SchemaError} :
    r.register kind drafts = .error e ↔ (r.attempt kind drafts).2 = some e := by
  unfold attempt
  cases r.register kind drafts <;> simp

theorem register_eq_ok_iff {r' : Registry} :
    r.register kind drafts = .ok r' ↔ r.attempt kind drafts = (r', none) := by
  unfold attempt
  cases r.register kind drafts <;> simp

/-- An attempt registers, finds the kind registered already, or finds a fault. -/
theorem attempt_cases :
    (r.descriptor? kind = none ∧ Acceptable drafts ∧ ∃ rules, Drafted drafts rules ∧
      r.attempt kind drafts = (⟨r.entities ++ [(kind, ⟨rules⟩)]⟩, none)) ∨
    (r.descriptor? kind ≠ none ∧ r.attempt kind drafts = (r, some (.duplicateEntity kind))) ∨
    (r.descriptor? kind = none ∧ ¬ Acceptable drafts ∧ ∃ e,
      (∀ e', FirstFault kind [] drafts e' ↔ e = e') ∧ r.attempt kind drafts = (r, some e)) := by
  obtain ⟨hok, herror⟩ := readRules_outcome kind drafts .nil .nil
  cases hd : r.descriptor? kind with
  | some d =>
    refine .inr (.inl ⟨nofun, ?_⟩)
    simp [attempt, register, hd]
  | none =>
    cases hread : readRules kind [] drafts with
    | ok rules =>
      obtain ⟨hacceptable, _, rfl, hrules⟩ := (hok rules).mp hread
      refine .inl ⟨rfl, hacceptable, rules, hrules, ?_⟩
      simp [attempt, register, hd, hread, bind, Except.bind]
    | error e =>
      have hfault : FirstFault kind [] drafts e := (herror e).mp hread
      refine .inr (.inr ⟨rfl, hfault.not_acceptable, e, fun e' => ?_, ?_⟩)
      · rw [← herror, hread, Except.error.injEq]
      · simp [attempt, register, hd, hread, bind, Except.bind]

theorem descriptor?_added (new : Descriptor) (other : EntityKind) :
    (Registry.mk (r.entities ++ [(kind, new)])).descriptor? other
      = (r.descriptor? other).or (if kind = other then some new else none) := by
  rw [descriptor?, List.lookup_append, ← descriptor?]
  by_cases hother : kind = other
  · rw [if_pos hother, ← hother, List.lookup_cons_self]
  · rw [if_neg hother, List.lookup_cons, beq_eq_false_iff_ne.mpr (Ne.symm hother)]
    rfl

/-- What an attempt adds. -/
theorem descriptor?_attempt (other : EntityKind) (d : Descriptor) :
    (r.attempt kind drafts).1.descriptor? other = some d ↔
      r.descriptor? other = some d ∨
        (r.descriptor? other = none ∧ kind = other ∧ Acceptable drafts ∧
          Drafted drafts d.rules) := by
  obtain ⟨hnone, hacceptable, rules, hrules, h⟩ | ⟨hsome, h⟩ | ⟨hnone, hbad, e, -, h⟩ :=
    attempt_cases r kind drafts
  · rw [h, descriptor?_added]
    cases hother : r.descriptor? other with
    | some d' => simp
    | none =>
      by_cases hkind : kind = other
      · simp only [hkind, if_true, Option.none_or, Option.some.injEq, reduceCtorEq, hacceptable,
          true_and, false_or]
        constructor
        · rintro rfl
          exact hrules
        · intro hd
          rw [hrules.unique hd]
      · rw [if_neg hkind, Option.none_or]
        exact ⟨.inl, fun hd => hd.resolve_right fun hd => hkind hd.2.1⟩
  · rw [h]
    refine ⟨.inl, fun hd => hd.resolve_right ?_⟩
    rintro ⟨hnone, rfl, -⟩
    exact hsome hnone
  · rw [h]
    exact ⟨.inl, fun hd => hd.resolve_right fun hd => hbad hd.2.2.1⟩

/-- A kind that was not registered before is not registered after an attempt for another kind or
with drafts that are not acceptable. -/
theorem descriptor?_attempt_eq_none (other : EntityKind) :
    (r.attempt kind drafts).1.descriptor? other = none ↔
      r.descriptor? other = none ∧ ¬ (kind = other ∧ Acceptable drafts) := by
  obtain ⟨hnone, hacceptable, rules, -, h⟩ | ⟨hsome, h⟩ | ⟨hnone, hbad, e, -, h⟩ :=
    attempt_cases r kind drafts
  · rw [h, descriptor?_added, Option.or_eq_none_iff, and_congr_right_iff]
    intro _
    by_cases hkind : kind = other
    · rw [if_pos hkind]
      exact ⟨nofun, fun hd => absurd ⟨hkind, hacceptable⟩ hd⟩
    · rw [if_neg hkind]
      exact ⟨fun _ hd => hkind hd.1, fun _ => rfl⟩
  · rw [h]
    refine ⟨fun hd => ⟨hd, ?_⟩, And.left⟩
    rintro ⟨rfl, -⟩
    exact hsome hd
  · rw [h]
    exact ⟨fun hd => ⟨hd, fun hkind => hbad hkind.2⟩, And.left⟩

end Attempt

theorem firstAcceptable_cons_iff {kind other : EntityKind}
    {first drafts : List (String × RuleDraft)} {steps : List Attempt} :
    FirstAcceptable kind ((other, first) :: steps) drafts ↔
      (other = kind ∧ Acceptable first ∧ first = drafts) ∨
        (¬ (other = kind ∧ Acceptable first) ∧ FirstAcceptable kind steps drafts) := by
  constructor
  · rintro ⟨before, after, hsteps, hbefore, hdrafts⟩
    cases before with
    | nil =>
      cases hsteps
      exact .inl ⟨rfl, hdrafts, rfl⟩
    | cons step before =>
      obtain ⟨rfl, rfl⟩ := List.cons.inj hsteps
      refine .inr ⟨?_, before, after, rfl,
        fun earlier hmem => hbefore earlier (List.mem_cons_of_mem _ hmem), hdrafts⟩
      rintro ⟨rfl, hfirst⟩
      exact hbefore first List.mem_cons_self hfirst
  · rintro (⟨rfl, hfirst, rfl⟩ | ⟨hfirst, before, after, rfl, hbefore, hdrafts⟩)
    · exact ⟨[], steps, rfl, fun _ hmem => absurd hmem List.not_mem_nil, hfirst⟩
    · refine ⟨(other, first) :: before, after, rfl, fun earlier hmem => ?_, hdrafts⟩
      rcases List.mem_cons.mp hmem with heq | hmem
      · cases heq
        exact fun hearlier => hfirst ⟨rfl, hearlier⟩
      · exact hbefore earlier hmem

/-- A kind that is not registered gets the rules of its first acceptable drafts. -/
theorem descriptor?_attempts (r : Registry) (steps : List Attempt) (kind : EntityKind)
    (d : Descriptor) :
    (r.attempts steps).descriptor? kind = some d ↔
      r.descriptor? kind = some d ∨ (r.descriptor? kind = none ∧
        ∃ drafts, FirstAcceptable kind steps drafts ∧ Drafted drafts d.rules) := by
  induction steps generalizing r with
  | nil =>
    refine ⟨.inl, fun h => h.resolve_right ?_⟩
    rintro ⟨-, drafts, ⟨before, after, hsteps, -⟩, -⟩
    exact List.append_ne_nil_of_right_ne_nil before (List.cons_ne_nil _ after) hsteps.symm
  | cons step steps ih =>
    obtain ⟨other, first⟩ := step
    rw [attempts, List.foldl_cons, ← attempts, ih, descriptor?_attempt, descriptor?_attempt_eq_none]
    simp only [firstAcceptable_cons_iff]
    constructor
    · rintro ((hd | ⟨hnone, hkind, hfirst, hrules⟩) | ⟨⟨hnone, hother⟩, drafts, hdrafts, hrules⟩)
      · exact .inl hd
      · exact .inr ⟨hnone, first, .inl ⟨hkind, hfirst, rfl⟩, hrules⟩
      · exact .inr ⟨hnone, drafts, .inr ⟨hother, hdrafts⟩, hrules⟩
    · rintro (hd | ⟨hnone, drafts, ⟨hkind, hfirst, rfl⟩ | ⟨hother, hdrafts⟩, hrules⟩)
      · exact .inl (.inl hd)
      · exact .inl (.inr ⟨hnone, hkind, hfirst, hrules⟩)
      · exact .inr ⟨⟨hnone, hother⟩, drafts, hdrafts, hrules⟩

/-- What an attempt at a kind comes to: the registry after it and the error, if there is one. -/
structure Exact (r : Registry) (kind : EntityKind) (drafts : List (String × RuleDraft))
    (after : Registry) (error : Option SchemaError) : Prop where
  succeeds : error = none ↔ r.descriptor? kind = none ∧ Acceptable drafts
  fails : ∀ e, error = some e ↔
    (r.descriptor? kind ≠ none ∧ e = .duplicateEntity kind) ∨
      (r.descriptor? kind = none ∧ FirstFault kind [] drafts e)
  size : error = none → (after.descriptor? kind).map (·.size) = some drafts.length
  /-- Every key finds the rule given for it, and other keys find none. -/
  rules : error = none → ∀ key rule,
    after.lookup? kind key = some rule ↔ ∃ draft, (key, draft) ∈ drafts ∧ draft.Describes rule
  others : ∀ other, other ≠ kind → after.descriptor? other = r.descriptor? other
  unchanged : ∀ e, error = some e → after = r

theorem attempt_exact (r : Registry) (kind : EntityKind) (drafts : List (String × RuleDraft)) :
    Exact r kind drafts (r.attempt kind drafts).1 (r.attempt kind drafts).2 := by
  obtain ⟨hnone, hacceptable, rules, hrules, h⟩ | ⟨hsome, h⟩ | ⟨hnone, hbad, e, hfault, h⟩ :=
    attempt_cases r kind drafts
  · have hadded : (r.attempt kind drafts).1.descriptor? kind = some ⟨rules⟩ := by
      rw [h, descriptor?_added, hnone, if_pos rfl, Option.none_or]
    rw [h] at hadded ⊢
    refine ⟨?_, ?_, ?_, ?_, ?_, ?_⟩
    · exact ⟨fun _ => ⟨hnone, hacceptable⟩, fun _ => rfl⟩
    · intro e
      refine ⟨nofun, ?_⟩
      rintro (⟨hsome, -⟩ | ⟨-, hfault⟩)
      · exact absurd hnone hsome
      · exact absurd hacceptable hfault.not_acceptable
    · intro _
      rw [hadded, Option.map_some, Descriptor.size, hrules.length_eq]
    · intro _ key rule
      rw [lookup?, hadded, Option.bind_some]
      exact hrules.lookup_eq_some_iff hacceptable.keys
    · intro other hother
      rw [descriptor?_added, if_neg (Ne.symm hother), Option.or_none]
    · exact nofun
  · rw [h]
    refine ⟨?_, ?_, nofun, nofun, fun _ _ => rfl, fun _ _ => rfl⟩
    · exact ⟨nofun, fun hnone => absurd hnone.1 hsome⟩
    · intro e
      rw [Option.some.injEq, eq_comm]
      exact ⟨fun he => .inl ⟨hsome, he⟩,
        fun he => he.elim And.right fun hnone => absurd hnone.1 hsome⟩
  · rw [h]
    refine ⟨?_, ?_, nofun, nofun, fun _ _ => rfl, fun _ _ => rfl⟩
    · exact ⟨nofun, fun hok => absurd hok.2 hbad⟩
    · intro e'
      rw [Option.some.injEq, ← hfault]
      exact ⟨fun he => .inr ⟨hnone, he⟩,
        fun he => he.elim (fun hsome => absurd hnone hsome.1) And.right⟩

/-- After any attempts one more succeeds exactly on a new kind with acceptable drafts, and one that
fails leaves the kind open to a later one. What is registered then is what the first acceptable
drafts of each kind describe, with one root at most and no empty path. -/
theorem construct_exact (steps : List Attempt) (kind : EntityKind)
    (drafts : List (String × RuleDraft)) :
    Exact (construct steps) kind drafts (construct (steps ++ [(kind, drafts)]))
      ((construct steps).attempt kind drafts).2 ∧
    (∀ d, (construct steps).descriptor? kind = some d ↔
      ∃ first, FirstAcceptable kind steps first ∧ Drafted first d.rules) ∧
    (∀ d, (construct steps).descriptor? kind = some d → d.Sound) ∧
    ∀ later, (construct steps).descriptor? kind = none → ¬ Acceptable drafts → Acceptable later →
      ((construct (steps ++ [(kind, drafts)])).attempt kind later).2 = none := by
  have hnext :
      construct (steps ++ [(kind, drafts)]) = ((construct steps).attempt kind drafts).1 := by
    rw [construct, attempts, List.foldl_append]
    rfl
  have hregistered : ∀ d, (construct steps).descriptor? kind = some d ↔
      ∃ first, FirstAcceptable kind steps first ∧ Drafted first d.rules := by
    intro d
    rw [construct, descriptor?_attempts]
    exact ⟨fun h => h.elim nofun And.right, fun h => .inr ⟨rfl, h⟩⟩
  refine ⟨?_, hregistered, ?_, ?_⟩
  · rw [hnext]
    exact attempt_exact (construct steps) kind drafts
  · intro d hd
    obtain ⟨first, ⟨_, _, _, _, hfirst⟩, hrules⟩ := (hregistered d).mp hd
    exact hrules.sound hfirst
  · intro later hnone hbad hlater
    rw [hnext]
    have hopen : ((construct steps).attempt kind drafts).1.descriptor? kind = none :=
      (descriptor?_attempt_eq_none _ kind drafts kind).mpr ⟨hnone, fun h => hbad h.2⟩
    exact (attempt_exact _ kind later).succeeds.mpr ⟨hopen, hlater⟩

/-- The rules of an album release are those that its drafts describe. -/
example : construct [(.albumRelease,
    [("albumRelease", .root), ("albumReleaseDetail", .direct "details"),
     ("albumReleaseUserDetail", .direct "userDetails"), ("artist", .direct "primaryArtists"),
     ("track", .direct "details.tracks"),
     ("trackUserDetail",
      .indexed "details.tracks" "userDetails" (.fieldEquals "parentTrack" "id"))])]
    = builtin := rfl

end Registry

end CatalogAssembly
