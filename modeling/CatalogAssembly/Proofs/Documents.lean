import CatalogAssembly.Proofs.Registration
import CatalogAssembly.Proofs.UniqueNames

/-!
# Loading schema documents

A document is well-formed when every entity goes by a name of a kind, no two go
by names of the same kind, every entry has the fields of its placement and no
others, no entity has two roots, and all paths can be read. Well-formed
documents are loaded and no others; under each key stands the rule its entry
describes. A document that is not well-formed is refused for its first entity
that does not go with the ones before it. There the shapes of all entries come
first, then the kind, which may be taken, and only then roots and paths; as a
map has no key twice, no fragment is ever found to be given twice.
-/
namespace CatalogAssembly

namespace EntityKind

/-- Either name of the kind is understood. -/
def Named (kind : EntityKind) (name : String) : Prop := name = kind.name ∨ name = kind.commandName

variable {kind kind' : EntityKind} {name : String}

theorem ofName?_eq_some_iff : ofName? name = some kind ↔ kind.Named name := by
  cases kind
  rw [ofName?, all, List.find?_singleton, Named, @eq_comm _ name, @eq_comm _ name]
  simp [Decidable.or_iff_not_imp_left]

theorem ofName?_eq_none_iff : ofName? name = none ↔ ∀ kind : EntityKind, ¬ kind.Named name := by
  simp only [← ofName?_eq_some_iff, Option.eq_none_iff_forall_ne_some]

theorem Named.unique (h : kind.Named name) (h' : kind'.Named name) : kind = kind' :=
  Option.some.inj ((ofName?_eq_some_iff.mpr h).symm.trans (ofName?_eq_some_iff.mpr h'))

end EntityKind

/-- What is wrong with an entry that does not have the fields of its placement. -/
def Placement.fault : Placement → RuleFault
  | .root => .rootTakesNothing
  | .direct => .directNeedsPath
  | .indexed => .indexedNeedsAll

namespace RuleEntry

/-- The placement that is given, or else the one the fields suggest. -/
inductive PlacedAs (entry : RuleEntry) : Placement → Prop
  | given {placement : Placement} (h : entry.placement = some placement) : PlacedAs entry placement
  | byParent (h : entry.placement = none) (hparent : entry.parent ≠ none) : PlacedAs entry .indexed
  | byPath (h : entry.placement = none) (hparent : entry.parent = none)
      (hpath : entry.path ≠ none) : PlacedAs entry .direct
  | bare (h : entry.placement = none) (hparent : entry.parent = none) (hpath : entry.path = none) :
      PlacedAs entry .root

/-- The entry has the fields of its placement and no others, and this is their draft. -/
inductive Asks (entry : RuleEntry) : RuleDraft → Prop
  | root (h : entry.PlacedAs .root) (hpath : entry.path = none) (hparent : entry.parent = none)
      (hfields : entry.fields = none) : Asks entry .root
  | direct {path : String} (h : entry.PlacedAs .direct) (hpath : entry.path = some path)
      (hparent : entry.parent = none) (hfields : entry.fields = none) : Asks entry (.direct path)
  | indexed {path parent : String} {fields : MatchEntry} (h : entry.PlacedAs .indexed)
      (hpath : entry.path = some path) (hparent : entry.parent = some parent)
      (hfields : entry.fields = some fields) :
      Asks entry (.indexed parent path (.fieldEquals fields.dataField fields.itemField))

def Shaped (entry : RuleEntry) : Prop := ∃ draft, entry.Asks draft

inductive Misfit (entry : RuleEntry) : RuleFault → Prop
  | intro {placement : Placement} (h : entry.PlacedAs placement) (hshape : ¬ entry.Shaped) :
      Misfit entry placement.fault

variable {entry : RuleEntry} {draft draft' : RuleDraft} {placement : Placement} {fault : RuleFault}

theorem placedAs_iff : entry.PlacedAs placement ↔ entry.effectivePlacement = placement := by
  obtain ⟨given, path, parent, fields⟩ := entry
  constructor
  · rintro (h | ⟨h, hparent⟩ | ⟨h, hparent, hpath⟩ | ⟨h, hparent, hpath⟩)
    · simp_all [effectivePlacement]
    · simp_all [effectivePlacement, Option.isSome_iff_ne_none]
    · simp_all [effectivePlacement, Option.isSome_iff_ne_none]
    · simp_all [effectivePlacement]
  · rintro rfl
    cases given with
    | some placement => exact .given rfl
    | none =>
      cases parent with
      | some parent => exact .byParent rfl nofun
      | none =>
        cases path with
        | some path => exact .byPath rfl rfl nofun
        | none => exact .bare rfl rfl rfl

theorem draft_eq_ok_iff : entry.draft = .ok draft ↔ entry.Asks draft := by
  constructor
  · intro h
    unfold RuleEntry.draft at h
    split at h
    next hplacement hpath hparent hfields =>
      cases h
      exact .root (placedAs_iff.mpr hplacement) hpath hparent hfields
    next => cases h
    next hplacement hpath hparent hfields =>
      cases h
      exact .direct (placedAs_iff.mpr hplacement) hpath hparent hfields
    next => cases h
    next hplacement hpath hparent hfields =>
      cases h
      exact .indexed (placedAs_iff.mpr hplacement) hpath hparent hfields
    next => cases h
  · intro h
    cases h with
    | root h hpath hparent hfields =>
      simp only [RuleEntry.draft, placedAs_iff.mp h, hpath, hparent, hfields]
    | direct h hpath hparent hfields =>
      simp only [RuleEntry.draft, placedAs_iff.mp h, hpath, hparent, hfields]
    | indexed h hpath hparent hfields =>
      simp only [RuleEntry.draft, placedAs_iff.mp h, hpath, hparent, hfields]

theorem draft_eq_error (h : entry.draft = .error fault) :
    fault = entry.effectivePlacement.fault := by
  unfold RuleEntry.draft at h
  split at h
  next => cases h
  next hplacement _ =>
    cases h
    rw [hplacement, Placement.fault]
  next => cases h
  next hplacement _ =>
    cases h
    rw [hplacement, Placement.fault]
  next => cases h
  next hplacement _ =>
    cases h
    rw [hplacement, Placement.fault]

theorem draft_eq_error_iff : entry.draft = .error fault ↔ entry.Misfit fault := by
  constructor
  · intro h
    rw [draft_eq_error h]
    refine .intro (placedAs_iff.mpr rfl) ?_
    rintro ⟨draft, hdraft⟩
    rw [draft_eq_ok_iff.mpr hdraft] at h
    cases h
  · rintro ⟨h, hshape⟩
    cases hdraft : entry.draft with
    | ok draft => exact absurd ⟨draft, draft_eq_ok_iff.mp hdraft⟩ hshape
    | error fault => rw [draft_eq_error hdraft, placedAs_iff.mp h]

theorem Asks.unique (h : entry.Asks draft) (h' : entry.Asks draft') : draft = draft' :=
  Except.ok.inj ((draft_eq_ok_iff.mpr h).symm.trans (draft_eq_ok_iff.mpr h'))

theorem Asks.isRoot_iff (h : entry.Asks draft) : draft.isRoot = true ↔ entry.Asks .root := by
  constructor
  · intro hroot
    cases draft with
    | root => exact h
    | _ => cases hroot
  · intro hroot
    rw [h.unique hroot]
    rfl

theorem Asks.mem_texts_iff {text : String} (h : entry.Asks draft) :
    text ∈ draft.texts ↔ entry.path = some text ∨ entry.parent = some text := by
  cases h with
  | root _ hpath hparent => simp [RuleDraft.texts, hpath, hparent]
  | direct _ hpath hparent => simp [RuleDraft.texts, hpath, hparent, eq_comm]
  | indexed _ hpath hparent => simp [RuleDraft.texts, hpath, hparent, eq_comm, or_comm]

end RuleEntry

/-- Entries from which an entity can be registered. -/
structure SoundEntries (entries : List (String × RuleEntry)) : Prop where
  shaped : ∀ entry ∈ entries, entry.2.Shaped
  oneRoot : entries.Pairwise fun a b => a.2.Asks .root → ¬ b.2.Asks .root
  readable : ∀ entry ∈ entries, ∀ text, entry.2.path = some text ∨ entry.2.parent = some text →
    ∃ p, Path.parse text = .ok p

/-- The drafts of some entries, in their order. -/
inductive Asked : List (String × RuleEntry) → List (String × RuleDraft) → Prop
  | nil : Asked [] []
  | cons {key : String} {entry : RuleEntry} {draft : RuleDraft}
      {entries : List (String × RuleEntry)} {drafts : List (String × RuleDraft)}
      (h : entry.Asks draft) (rest : Asked entries drafts) :
      Asked ((key, entry) :: entries) ((key, draft) :: drafts)

section Entries

variable {entries : List (String × RuleEntry)} {drafts drafts' : List (String × RuleDraft)}
  {key : String} {entry : RuleEntry} {draft : RuleDraft} {e : SchemaError}

theorem Asked.names (h : Asked entries drafts) : drafts.map (·.1) = entries.map (·.1) := by
  induction h with
  | nil => rfl
  | cons _ _ ih => rw [List.map_cons, List.map_cons, ih]

theorem Asked.mem_left (h : Asked entries drafts) (hmem : (key, entry) ∈ entries) :
    ∃ draft, (key, draft) ∈ drafts ∧ entry.Asks draft := by
  induction h with
  | nil => cases hmem
  | cons hasks _ ih =>
    rcases List.mem_cons.mp hmem with heq | hmem
    · cases heq
      exact ⟨_, List.mem_cons_self, hasks⟩
    · obtain ⟨draft, hdraft, hasks⟩ := ih hmem
      exact ⟨draft, List.mem_cons_of_mem _ hdraft, hasks⟩

theorem Asked.mem_right (h : Asked entries drafts) (hmem : (key, draft) ∈ drafts) :
    ∃ entry, (key, entry) ∈ entries ∧ entry.Asks draft := by
  induction h with
  | nil => cases hmem
  | cons hasks _ ih =>
    rcases List.mem_cons.mp hmem with heq | hmem
    · cases heq
      exact ⟨_, List.mem_cons_self, hasks⟩
    · obtain ⟨entry, hentry, hasks⟩ := ih hmem
      exact ⟨entry, List.mem_cons_of_mem _ hentry, hasks⟩

/-- Under a key the drafts describe what the entries do. -/
theorem Asked.describes_iff {rule : Rule} (h : Asked entries drafts) :
    (∃ draft, (key, draft) ∈ drafts ∧ draft.Describes rule) ↔
      ∃ entry draft, (key, entry) ∈ entries ∧ RuleEntry.Asks entry draft ∧
        draft.Describes rule := by
  constructor
  · rintro ⟨draft, hmem, hrule⟩
    obtain ⟨entry, hentry, hasks⟩ := h.mem_right hmem
    exact ⟨entry, draft, hentry, hasks, hrule⟩
  · rintro ⟨entry, draft, hmem, hasks, hrule⟩
    obtain ⟨draft', hdraft, hasks'⟩ := h.mem_left hmem
    exact ⟨draft', hdraft, hasks'.unique hasks ▸ hrule⟩

theorem Asked.shaped (h : Asked entries drafts) : ∀ entry ∈ entries, entry.2.Shaped := by
  intro entry hmem
  obtain ⟨draft, -, hasks⟩ := h.mem_left hmem
  exact ⟨draft, hasks⟩

theorem drafts_eq_ok_iff : SchemaDocument.drafts entries = .ok drafts ↔ Asked entries drafts := by
  induction entries generalizing drafts with
  | nil =>
    constructor
    · intro h
      cases h
      exact .nil
    · intro h
      cases h
      rfl
  | cons first entries ih =>
    obtain ⟨key, entry⟩ := first
    rw [SchemaDocument.drafts]
    cases hentry : entry.draft with
    | error fault =>
      refine ⟨nofun, fun h => ?_⟩
      cases h with
      | cons hasks _ => cases hentry.symm.trans (RuleEntry.draft_eq_ok_iff.mpr hasks)
    | ok draft =>
      have hasks : entry.Asks draft := RuleEntry.draft_eq_ok_iff.mp hentry
      simp only [Path.bind_eq_ok_iff, ih, Except.ok.injEq]
      constructor
      · rintro ⟨more, hmore, rfl⟩
        exact .cons hasks hmore
      · intro h
        cases h with
        | cons hasks' hmore =>
          rw [hasks'.unique hasks]
          exact ⟨_, hmore, rfl⟩

/-- The drafts are refused for the first entry that misses its shape. -/
theorem drafts_eq_error_iff :
    SchemaDocument.drafts entries = .error e ↔ ∃ good key entry rest fault,
      entries = good ++ (key, entry) :: rest ∧ (∀ other ∈ good, other.2.Shaped) ∧
        entry.Misfit fault ∧ e = .invalidRule key fault := by
  induction entries with
  | nil =>
    refine ⟨nofun, ?_⟩
    rintro ⟨good, key, entry, rest, fault, h, -⟩
    exact absurd h.symm (List.append_ne_nil_of_right_ne_nil good (List.cons_ne_nil _ rest))
  | cons first entries ih =>
    obtain ⟨key, entry⟩ := first
    rw [SchemaDocument.drafts]
    cases hentry : entry.draft with
    | error fault =>
      have hmisfit : entry.Misfit fault := RuleEntry.draft_eq_error_iff.mp hentry
      constructor
      · intro h
        cases h
        exact ⟨[], key, entry, entries, fault, rfl, fun _ hmem => absurd hmem List.not_mem_nil,
          hmisfit, rfl⟩
      · rintro ⟨good, key', entry', rest, fault', h, hgood, hmisfit', rfl⟩
        cases good with
        | nil =>
          cases h
          cases hentry.symm.trans (RuleEntry.draft_eq_error_iff.mpr hmisfit')
          rfl
        | cons other good =>
          cases h
          obtain ⟨draft, hasks⟩ := hgood (key, entry) List.mem_cons_self
          cases hentry.symm.trans (RuleEntry.draft_eq_ok_iff.mpr hasks)
    | ok draft =>
      have hshaped : entry.Shaped := ⟨draft, RuleEntry.draft_eq_ok_iff.mp hentry⟩
      simp only [bind_eq_error_iff, ih, reduceCtorEq, and_false, exists_false, or_false]
      constructor
      · rintro ⟨good, key', entry', rest, fault, rfl, hgood, hmisfit, rfl⟩
        exact ⟨(key, entry) :: good, key', entry', rest, fault, rfl,
          List.forall_mem_cons.mpr ⟨hshaped, hgood⟩, hmisfit, rfl⟩
      · rintro ⟨good, key', entry', rest, fault, h, hgood, hmisfit, rfl⟩
        cases good with
        | nil =>
          cases h
          cases hentry.symm.trans (RuleEntry.draft_eq_error_iff.mpr hmisfit)
        | cons other good =>
          cases h
          exact ⟨good, key', entry', rest, fault, rfl,
            fun other hmem => hgood other (List.mem_cons_of_mem _ hmem), hmisfit, rfl⟩

theorem Asked.forall_iff (holds : RuleEntry → Prop) (holds' : RuleDraft → Prop)
    (h : Asked entries drafts)
    (heq : ∀ {entry draft}, entry.Asks draft → (holds' draft ↔ holds entry)) :
    (∀ draft ∈ drafts, holds' draft.2) ↔ ∀ entry ∈ entries, holds entry.2 := by
  induction h with
  | nil => simp
  | cons hasks _ ih => rw [List.forall_mem_cons, List.forall_mem_cons, ih, heq hasks]

theorem Asked.oneRoot_iff (h : Asked entries drafts) :
    drafts.countP (·.2.isRoot) ≤ 1 ↔
      entries.Pairwise fun a b => a.2.Asks .root → ¬ b.2.Asks .root := by
  induction h with
  | nil => simp
  | @cons key entry draft entries drafts hasks hrest ih =>
    rw [List.countP_cons, List.pairwise_cons, ← ih]
    by_cases hroot : draft.isRoot = true
    · have hnone : drafts.countP (·.2.isRoot) = 0 ↔ ∀ other ∈ entries, ¬ other.2.Asks .root := by
        rw [List.countP_eq_zero]
        exact hrest.forall_iff (fun entry => ¬ entry.Asks .root)
          (fun draft => ¬ draft.isRoot = true) fun hasks => not_congr hasks.isRoot_iff
      have hentry : entry.Asks .root := hasks.isRoot_iff.mp hroot
      simp only [hroot, if_true, hentry, true_implies, ← hnone]
      omega
    · have hentry : ¬ entry.Asks .root := fun h => hroot (hasks.isRoot_iff.mpr h)
      simp [hroot, hentry]

/-- The drafts of entries are acceptable when the entries are sound. -/
theorem Asked.acceptable_iff (h : Asked entries drafts) (hnames : (entries.map (·.1)).Nodup) :
    Acceptable drafts ↔ SoundEntries entries := by
  have hreadable := h.forall_iff
    (fun entry => ∀ text, entry.path = some text ∨ entry.parent = some text →
      ∃ p, Path.parse text = .ok p)
    (fun draft => ∀ text ∈ draft.texts, ∃ p, Path.parse text = .ok p)
    fun hasks => by simp only [hasks.mem_texts_iff]
  constructor
  · intro hdrafts
    exact ⟨h.shaped, h.oneRoot_iff.mp hdrafts.oneRoot, hreadable.mp hdrafts.readable⟩
  · intro hentries
    exact ⟨h.oneRoot_iff.mpr hentries.oneRoot, hreadable.mpr hentries.readable, h.names ▸ hnames⟩

theorem exists_asked (h : ∀ entry ∈ entries, entry.2.Shaped) : ∃ drafts, Asked entries drafts := by
  cases hdrafts : SchemaDocument.drafts entries with
  | ok drafts => exact ⟨drafts, drafts_eq_ok_iff.mp hdrafts⟩
  | error e =>
    obtain ⟨good, key, entry, rest, fault, rfl, -, hmisfit, -⟩ := drafts_eq_error_iff.mp hdrafts
    cases hmisfit with
    | intro _ hshape => exact absurd (h (key, entry) (by simp)) hshape

/-- The first fault of drafts whose keys differ is one of roots or paths. -/
theorem firstFault_iff_of_nodup {kind : EntityKind} (hkeys : (drafts.map (·.1)).Nodup) :
    FirstFault kind [] drafts e ↔ ∃ good key draft rest,
      drafts = good ++ (key, draft) :: rest ∧ Acceptable good ∧ draft.Faulty kind good e := by
  constructor
  · rintro ⟨good, ⟨key, draft⟩, rest, rfl, hgood, hbreaks⟩
    cases hbreaks with
    | faulty h => exact ⟨good, key, draft, rest, rfl, hgood, h⟩
    | repeated _ hkey =>
      rw [List.map_append, List.nodup_append] at hkeys
      exact absurd rfl (hkeys.2.2 key hkey key (by simp))
  · rintro ⟨good, key, draft, rest, rfl, hgood, h⟩
    exact ⟨good, (key, draft), rest, rfl, hgood, .faulty h⟩

end Entries

namespace SchemaDocument

/-- The name of an entity with the entries of its fragments. -/
abbrev Entity := String × List (String × RuleEntry)

structure WellFormed (entities : List Entity) : Prop where
  named : ∀ entity ∈ entities, ∃ kind : EntityKind, kind.Named entity.1
  once : entities.Pairwise fun a b => ∀ kind : EntityKind, kind.Named a.1 → ¬ kind.Named b.1
  sound : ∀ entity ∈ entities, SoundEntries entity.2

/-- What is wrong with an entity after others. -/
inductive Offends (before : List Entity) : Entity → SchemaError → Prop
  | unknown {name : String} {entries : List (String × RuleEntry)}
      (h : ∀ kind : EntityKind, ¬ kind.Named name) :
      Offends before (name, entries) (.unknownEntityKind name)
  | misshapen {name key : String} {kind : EntityKind}
      {entries good rest : List (String × RuleEntry)} {entry : RuleEntry} {fault : RuleFault}
      (hkind : kind.Named name) (hentries : entries = good ++ (key, entry) :: rest)
      (hgood : ∀ other ∈ good, other.2.Shaped) (h : entry.Misfit fault) :
      Offends before (name, entries) (.invalidRule key fault)
  | again {name : String} {kind : EntityKind} {entries : List (String × RuleEntry)}
      (hkind : kind.Named name) (hshaped : ∀ entry ∈ entries, entry.2.Shaped)
      (h : ∃ other ∈ before, kind.Named other.1) :
      Offends before (name, entries) (.duplicateEntity kind)
  | faulty {name key : String} {kind : EntityKind} {entries : List (String × RuleEntry)}
      {good rest : List (String × RuleDraft)} {draft : RuleDraft} {e : SchemaError}
      (hkind : kind.Named name) (hnew : ∀ other ∈ before, ¬ kind.Named other.1)
      (hasked : Asked entries (good ++ (key, draft) :: rest)) (hgood : Acceptable good)
      (h : draft.Faulty kind good e) :
      Offends before (name, entries) e

/-- The first entity that offends, behind well-formed ones. -/
def FirstOffence (before entities : List Entity) (e : SchemaError) : Prop :=
  ∃ good entity rest, entities = good ++ entity :: rest ∧ WellFormed (before ++ good) ∧
    Offends (before ++ good) entity e

/-- The rule that an entry under a name of the kind describes. -/
def Describes (entities : List Entity) (kind : EntityKind) (key : String) (rule : Rule) : Prop :=
  ∃ entity ∈ entities, kind.Named entity.1 ∧ ∃ entry draft, (key, entry) ∈ entity.2 ∧
    RuleEntry.Asks entry draft ∧ draft.Describes rule

/-- The registry holds what the entities describe. -/
structure Loaded (entities : List Entity) (r : Registry) : Prop where
  registered (kind : EntityKind) :
    r.descriptor? kind = none ↔ ∀ entity ∈ entities, ¬ kind.Named entity.1
  rules (kind : EntityKind) (key : String) (rule : Rule) :
    r.lookup? kind key = some rule ↔ Describes entities kind key rule

section Entities

variable {before entities : List Entity} {name key : String}
  {entries : List (String × RuleEntry)} {drafts : List (String × RuleDraft)} {kind : EntityKind}
  {rule : Rule} {r : Registry} {e : SchemaError}

theorem WellFormed.nil : WellFormed [] :=
  ⟨fun _ hmem => absurd hmem List.not_mem_nil, .nil, fun _ hmem => absurd hmem List.not_mem_nil⟩

theorem WellFormed.of_append {more : List Entity} (h : WellFormed (entities ++ more)) :
    WellFormed entities where
  named entity hmem := h.named entity (List.mem_append_left more hmem)
  once := (List.pairwise_append.mp h.once).1
  sound entity hmem := h.sound entity (List.mem_append_left more hmem)

/-- One more entity goes with well-formed ones when it is sound and its kind is new. -/
theorem wellFormed_concat_iff :
    WellFormed (before ++ [(name, entries)]) ↔
      WellFormed before ∧ SoundEntries entries ∧
        ∃ kind : EntityKind, kind.Named name ∧ ∀ other ∈ before, ¬ kind.Named other.1 := by
  constructor
  · intro h
    obtain ⟨kind, hkind⟩ := h.named (name, entries) (by simp)
    refine ⟨h.of_append, h.sound (name, entries) (by simp), kind, hkind, ?_⟩
    intro other hmem hother
    have honce := (List.pairwise_append.mp h.once).2.2 other hmem (name, entries) (by simp)
    exact honce kind hother hkind
  · rintro ⟨h, hsound, kind, hkind, hnew⟩
    refine ⟨?_, ?_, ?_⟩
    · exact List.forall_mem_append.mpr ⟨h.named, List.forall_mem_singleton.mpr ⟨kind, hkind⟩⟩
    · refine List.pairwise_append.mpr ⟨h.once, List.pairwise_singleton _ _, ?_⟩
      intro other hmem entity hentity kind' hother hkind'
      rw [List.mem_singleton.mp hentity] at hkind'
      rw [hkind'.unique hkind] at hother
      exact hnew other hmem hother
    · exact List.forall_mem_append.mpr ⟨h.sound, List.forall_mem_singleton.mpr hsound⟩

theorem describes_concat_iff :
    Describes (before ++ [(name, entries)]) kind key rule ↔
      Describes before kind key rule ∨ kind.Named name ∧ ∃ entry draft, (key, entry) ∈ entries ∧
        RuleEntry.Asks entry draft ∧ draft.Describes rule := by
  simp only [Describes, List.mem_append, List.mem_singleton, or_and_right, exists_or,
    exists_eq_left]

theorem Offends.not_wellFormed {entity : Entity} (h : Offends before entity e)
    (hnames : Ascending entity.2) : ¬ WellFormed (before ++ [entity]) := by
  cases h with
  | unknown h =>
    rw [wellFormed_concat_iff]
    rintro ⟨-, -, kind, hkind, -⟩
    exact h kind hkind
  | @misshapen _ key _ _ _ _ entry _ _ hentries _ h =>
    rw [wellFormed_concat_iff]
    rintro ⟨-, hsound, -⟩
    have hshaped : entry.Shaped := hsound.shaped (key, entry) (by simp [hentries])
    cases h with
    | intro _ hshape => exact hshape hshaped
  | again hkind _ h =>
    rw [wellFormed_concat_iff]
    rintro ⟨-, -, kind, hkind', hnew⟩
    obtain ⟨other, hmem, hother⟩ := h
    exact hnew other hmem (hkind.unique hkind' ▸ hother)
  | faulty _ _ hasked _ h =>
    rw [wellFormed_concat_iff]
    rintro ⟨-, hsound, -⟩
    have hdrafts := (hasked.acceptable_iff hnames.nodup).mpr hsound
    rw [List.append_cons] at hdrafts
    exact h.not_acceptable hdrafts.of_append

theorem Offends.ne_duplicateFragment {entity : Entity} {kind : EntityKind}
    (h : Offends before entity e) : e ≠ .duplicateFragment kind key := by
  rintro rfl
  cases h with
  | faulty _ _ _ _ h => cases h

theorem Loaded.descriptor?_ne_none_iff (hr : Loaded before r) :
    r.descriptor? kind ≠ none ↔ ∃ other ∈ before, kind.Named other.1 := by
  rw [Ne, hr.registered]
  simp

/-- An entity of a known kind is refused for a shape, or else as its drafts are. -/
theorem offends_iff (hr : Loaded before r) (hnames : Ascending entries)
    (hkind : kind.Named name) :
    Offends before (name, entries) e ↔ SchemaDocument.drafts entries = .error e ∨
      ∃ drafts, Asked entries drafts ∧ r.register kind drafts = .error e := by
  simp only [Registry.register_eq_error_iff, (Registry.attempt_exact r kind _).fails,
    hr.descriptor?_ne_none_iff, hr.registered, drafts_eq_error_iff]
  constructor
  · intro h
    cases h with
    | unknown h => exact absurd hkind (h kind)
    | misshapen _ hentries hgood h => exact .inl ⟨_, _, _, _, _, hentries, hgood, h, rfl⟩
    | again hkind' hshaped h =>
      rw [hkind'.unique hkind] at h ⊢
      obtain ⟨drafts, hasked⟩ := exists_asked hshaped
      exact .inr ⟨drafts, hasked, .inl ⟨h, rfl⟩⟩
    | faulty hkind' hnew hasked hgood h =>
      rw [hkind'.unique hkind] at hnew h
      have hkeys := hasked.names ▸ hnames.nodup
      -- No key is repeated, so that the first fault is one of a draft by itself.
      exact .inr ⟨_, hasked,
        .inr ⟨hnew, (firstFault_iff_of_nodup hkeys).mpr ⟨_, _, _, _, rfl, hgood, h⟩⟩⟩
  · rintro (⟨good, key, entry, rest, fault, hentries, hgood, h, rfl⟩ |
      ⟨drafts, hasked, ⟨h, rfl⟩ | ⟨hnew, h⟩⟩)
    · exact .misshapen hkind hentries hgood h
    · exact .again hkind hasked.shaped h
    · have hkeys := hasked.names ▸ hnames.nodup
      obtain ⟨good, key, draft, rest, rfl, hgood, h⟩ := (firstFault_iff_of_nodup hkeys).mp h
      exact .faulty hkind hnew hasked hgood h

/-- An entity is refused for what is wrong with it, and for nothing else. -/
theorem addEntity_eq_error_iff (hr : Loaded before r) (hnames : Ascending entries) :
    addEntity r name entries = .error e ↔ Offends before (name, entries) e := by
  unfold addEntity
  cases hname : EntityKind.ofName? name with
  | none =>
    have hunknown := EntityKind.ofName?_eq_none_iff.mp hname
    constructor
    · intro h
      cases h
      exact .unknown hunknown
    · intro h
      cases h with
      | unknown => rfl
      | misshapen hkind => exact absurd hkind (hunknown _)
      | again hkind => exact absurd hkind (hunknown _)
      | faulty hkind => exact absurd hkind (hunknown _)
  | some kind =>
    simp only [bind_eq_error_iff, drafts_eq_ok_iff]
    rw [offends_iff hr hnames (EntityKind.ofName?_eq_some_iff.mp hname)]

/-- The registry then holds what the entity describes besides. -/
theorem loaded_of_addEntity {r' : Registry} (hbefore : WellFormed before) (hr : Loaded before r)
    (hnames : Ascending entries) (h : addEntity r name entries = .ok r') :
    WellFormed (before ++ [(name, entries)]) ∧ Loaded (before ++ [(name, entries)]) r' := by
  unfold addEntity at h
  split at h
  next => cases h
  next kind hname =>
    have hkind : kind.Named name := EntityKind.ofName?_eq_some_iff.mp hname
    simp only [Path.bind_eq_ok_iff, drafts_eq_ok_iff, Registry.register_eq_ok_iff] at h
    obtain ⟨drafts, hasked, hattempt⟩ := h
    have hexact := Registry.attempt_exact r kind drafts
    rw [hattempt] at hexact
    obtain ⟨hnone, hdrafts⟩ := hexact.succeeds.mp rfl
    have hnew := (hr.registered kind).mp hnone
    refine ⟨wellFormed_concat_iff.mpr
      ⟨hbefore, (hasked.acceptable_iff hnames.nodup).mp hdrafts, kind, hkind, hnew⟩, ?_, ?_⟩
    · intro other
      rw [List.forall_mem_append, List.forall_mem_singleton, ← hr.registered]
      by_cases hother : other = kind
      · subst hother
        have hsize := hexact.size rfl
        constructor
        · intro h
          rw [h] at hsize
          cases hsize
        · exact fun h => absurd hkind h.2
      · rw [hexact.others other hother]
        exact (and_iff_left fun h => hother (h.unique hkind)).symm
    · intro other key rule
      rw [describes_concat_iff]
      by_cases hother : other = kind
      · subst hother
        have hnever : ¬ Describes before other key rule :=
          fun ⟨entity, hmem, hentity, _⟩ => hnew entity hmem hentity
        rw [hexact.rules rfl, hasked.describes_iff]
        simp only [hnever, hkind, true_and, false_or]
      · have hnot : ¬ other.Named name := fun h => hother (h.unique hkind)
        simp only [hnot, false_and, or_false, ← hr.rules]
        rw [Registry.lookup?, hexact.others other hother, ← Registry.lookup?]

theorem not_firstOffence_nil : ¬ FirstOffence before [] e :=
  not_exists_first_nil WellFormed fun before entity => Offends before entity e

theorem firstOffence_cons_iff {entity : Entity} (hbefore : WellFormed before) :
    FirstOffence before (entity :: entities) e ↔
      Offends before entity e ∨
        (WellFormed (before ++ [entity]) ∧ FirstOffence (before ++ [entity]) entities e) :=
  exists_first_cons_iff WellFormed (fun before entity => Offends before entity e)
    WellFormed.of_append hbefore

theorem FirstOffence.not_wellFormed (h : FirstOffence before entities e)
    (hnames : ∀ entity ∈ entities, Ascending entity.2) : ¬ WellFormed (before ++ entities) :=
  not_of_exists_first WellFormed (fun before entity => Offends before entity e)
    WellFormed.of_append (fun _ entity hmem h => h.not_wellFormed (hnames entity hmem)) h

/-- Entities behind others are loaded when all of them are well-formed together, and up to the
first offence otherwise. -/
theorem addEntities_outcome (hnames : ∀ entity ∈ entities, Ascending entity.2)
    (hbefore : WellFormed before) (hr : Loaded before r) :
    (∀ r', addEntities r entities = .ok r' →
      WellFormed (before ++ entities) ∧ Loaded (before ++ entities) r') ∧
    ∀ e, addEntities r entities = .error e ↔ FirstOffence before entities e := by
  -- By the entities that are left; the ones before them are well-formed and loaded.
  induction entities generalizing before r with
  | nil =>
    rw [List.append_nil]
    refine ⟨fun r' h => ?_, fun e => ⟨nofun, fun h => absurd h not_firstOffence_nil⟩⟩
    cases h
    exact ⟨hbefore, hr⟩
  | cons entity entities ih =>
    obtain ⟨name, entries⟩ := entity
    obtain ⟨hentries, hrest⟩ := List.forall_mem_cons.mp hnames
    simp only [addEntities, firstOffence_cons_iff hbefore, ← addEntity_eq_error_iff hr hentries,
      bind_eq_error_iff, Path.bind_eq_ok_iff]
    rw [List.append_cons]
    cases hadd : addEntity r name entries with
    | error e =>
      have hoffends : Offends before (name, entries) e :=
        (addEntity_eq_error_iff hr hentries).mp hadd
      have hbad := hoffends.not_wellFormed hentries
      refine ⟨?_, fun e' => ?_⟩
      · rintro r' ⟨next, hnext, -⟩
        cases hnext
      · refine or_congr_right ⟨?_, fun h => absurd h.1 hbad⟩
        rintro ⟨next, hnext, -⟩
        cases hnext
    | ok next =>
      obtain ⟨hgood, hnext⟩ := loaded_of_addEntity hbefore hr hentries hadd
      obtain ⟨hok, herror⟩ := ih hrest hgood hnext
      refine ⟨?_, fun e => ?_⟩
      · rintro r' ⟨_, heq, hr'⟩
        cases heq
        exact hok r' hr'
      · simp [hgood, herror]

theorem loaded_nil : Loaded [] Registry.empty where
  registered kind := ⟨fun _ _ hmem => absurd hmem List.not_mem_nil, fun _ => rfl⟩
  rules kind key rule := by
    refine ⟨nofun, ?_⟩
    rintro ⟨entity, hmem, -⟩
    cases hmem

theorem exists_describes {draft : RuleDraft}
    (h : ∀ text ∈ draft.texts, ∃ p, Path.parse text = .ok p) : ∃ rule, draft.Describes rule := by
  cases draft with
  | root => exact ⟨.root, .root⟩
  | direct text =>
    obtain ⟨p, hp⟩ := h text List.mem_cons_self
    exact ⟨_, .direct hp⟩
  | indexed parentText text m =>
    obtain ⟨parent, hparent⟩ := h parentText List.mem_cons_self
    obtain ⟨p, hp⟩ := h text (List.mem_cons_of_mem _ List.mem_cons_self)
    exact ⟨_, .indexed hparent hp⟩

/-- Every entry of a well-formed document describes a rule. -/
theorem WellFormed.describes (h : WellFormed entities) {entity : Entity} (hmem : entity ∈ entities)
    (hkind : kind.Named entity.1) (hkey : key ∈ entity.2.map (·.1)) :
    ∃ rule, Describes entities kind key rule := by
  obtain ⟨⟨key, entry⟩, hentry, rfl⟩ := List.mem_map.mp hkey
  have hsound := h.sound entity hmem
  obtain ⟨draft, hasks⟩ := hsound.shaped (key, entry) hentry
  obtain ⟨rule, hrule⟩ := exists_describes fun text htext =>
    hsound.readable (key, entry) hentry text (hasks.mem_texts_iff.mp htext)
  exact ⟨rule, entity, hmem, hkind, entry, draft, hentry, hasks, hrule⟩

end Entities

/-- What loading a document comes to. -/
structure Loads (d : SchemaDocument) (result : Except SchemaError Registry) : Prop where
  succeeds : (∃ r, result = .ok r) ↔ WellFormed d.entities
  rules {r : Registry} (h : result = .ok r) (kind : EntityKind) (key : String) (rule : Rule) :
    r.lookup? kind key = some rule ↔ Describes d.entities kind key rule
  others {r : Registry} (h : result = .ok r) (kind : EntityKind) (key : String) :
    r.lookup? kind key = none ↔
      ∀ entity ∈ d.entities, kind.Named entity.1 → key ∉ entity.2.map (·.1)
  fails (e : SchemaError) : result = .error e ↔ FirstOffence [] d.entities e
  unrepeated (kind : EntityKind) (key : String) : result ≠ .error (.duplicateFragment kind key)

theorem registry_loads {d : SchemaDocument} (h : d.IsMap) : Loads d d.registry := by
  obtain ⟨hok, herror⟩ := addEntities_outcome h.keys .nil loaded_nil
  rw [List.nil_append] at hok
  have hwell : (∃ r, d.registry = .ok r) ↔ WellFormed d.entities := by
    constructor
    · rintro ⟨r, hr⟩
      exact (hok r hr).1
    · intro hwell
      cases hd : d.registry with
      | ok r => exact ⟨r, rfl⟩
      | error e => exact absurd hwell (((herror e).mp hd).not_wellFormed h.keys)
  refine ⟨hwell, fun hr => (hok _ hr).2.rules, fun {r} hr kind key => ?_, herror, ?_⟩
  · obtain ⟨hentities, hloaded⟩ := hok r hr
    rw [Option.eq_none_iff_forall_ne_some]
    simp only [Ne, hloaded.rules]
    constructor
    · intro hnone entity hmem hkind hkey
      obtain ⟨rule, hrule⟩ := hentities.describes hmem hkind hkey
      exact hnone rule hrule
    · rintro hnone rule ⟨entity, hmem, hkind, entry, draft, hentry, -⟩
      exact hnone entity hmem hkind (List.mem_map_of_mem hentry)
  · intro kind key hd
    obtain ⟨good, entity, rest, -, -, hoffends⟩ := (herror _).mp hd
    exact hoffends.ne_duplicateFragment rfl

end SchemaDocument

namespace Registry

/-- A text that is read as a document gives a map, in the order of the names by bytes. Its registry
is loaded exactly when the document is well-formed. -/
theorem parse_loads {text : String} {d : SchemaDocument}
    (h : (Toml.parse? text).bind SchemaDocument.ofToml? = some d) :
    d.IsMap ∧ d.Loads (parse text) := by
  have hmap := SchemaDocument.isMap_of_text h
  rw [parse, h]
  exact ⟨hmap, SchemaDocument.registry_loads hmap⟩

/-- A direct rule and a root, under the name for the command line. -/
theorem parse_loads_command_name : ∃ d : SchemaDocument,
    d.entities = [("album-release",
      [("artist", ⟨none, some "artists", none, none⟩), ("release", ⟨none, none, none, none⟩)])] ∧
    d.IsMap ∧
    d.Loads (parse "[entities.album-release]\nartist.path = \"artists\"\nrelease = \x7b\x7d") := by
  have h : ((Toml.parse?
      "[entities.album-release]\nartist.path = \"artists\"\nrelease = \x7b\x7d").bind
        SchemaDocument.ofToml?).map (·.entities) = some [("album-release",
          [("artist", ⟨none, some "artists", none, none⟩),
           ("release", ⟨none, none, none, none⟩)])] := by
    decide +kernel
  obtain ⟨d, hd, hentities⟩ := Option.map_eq_some_iff.mp h
  exact ⟨d, hentities, parse_loads hd⟩

end Registry

end CatalogAssembly
