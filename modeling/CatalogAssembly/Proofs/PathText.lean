import CatalogAssembly.Proofs.PathGrammar

/-!
# Paths and their texts

Not every list of steps has a text of its own: a name may not be empty nor hold a dot
or a bracket, a name of digits only is taken for an index unless an index follows it,
and a text of blanks only is no path. `Readable` says this of a path, and the readable
paths are those that are the reading of some text. They are closed under `join` and
`atIndex`, and each is read back from its own text, so that no two of them have the
same one: `text_faithful`.
-/
namespace CatalogAssembly

/-- A step that can stand in a path text. -/
def Step.Plain : Step → Prop
  | .key name => name ≠ "" ∧ ∀ c ∈ name.toList, c ≠ '.' ∧ c ≠ '[' ∧ c ≠ ']'
  | .index n => n < Path.indexLimit

namespace Path

open Text (allBlank isBlank natOfDigits_toDigits)

/-- The conditions on a path under which it is the reading of some text. -/
structure Readable (p : Path) : Prop where
  nonempty : p ≠ []
  plain : ∀ s ∈ p, s.Plain
  /-- A name of digits only is followed by an index. -/
  numerals : ∀ i name, p[i]? = some (.key name) → name.toList.all Char.isDigit = true →
    ∃ n, p[i + 1]? = some (.index n)
  /-- The path is not a single name of blanks. -/
  visible : ∀ name, p = [.key name] → allBlank name = false

/-- Paths made from the root by joining paths that were read and by appending indices. -/
inductive Built : Path → Prop
  | root : Built []
  | join {p q : Path} {raw : String} (h : Built p) (hq : parse raw = .ok q) : Built (p.join q)
  | index {p : Path} {n : Nat} (h : Built p) (hn : n < indexLimit) : Built (p.atIndex n)

/-- Steps as they occur in readable paths, from anywhere on to the end. -/
inductive Spelled : Path → Prop
  | nil : Spelled []
  | cons {s : Step} {p : Path} (hs : s.Plain)
      (hnumeral : ∀ name, s = .key name → name.toList.all Char.isDigit = true →
        ∃ n q, p = .index n :: q)
      (rest : Spelled p) : Spelled (s :: p)

section Shape

theorem Spelled.index {n : Nat} {p : Path} (hn : n < indexLimit) (h : Spelled p) :
    Spelled (.index n :: p) :=
  .cons hn (fun name heq => by cases heq) h

theorem Spelled.append {p q : Path} (h : Spelled p) (hq : Spelled q) : Spelled (p ++ q) := by
  induction h with
  | nil => exact hq
  | cons hs hnumeral _ ih =>
    refine .cons hs (fun name hname hall => ?_) ih
    obtain ⟨n, rest, rfl⟩ := hnumeral name hname hall
    exact ⟨n, rest ++ q, rfl⟩

theorem Spelled.plain {p : Path} (h : Spelled p) : ∀ s ∈ p, s.Plain := by
  induction h with
  | nil => exact fun s hmem => absurd hmem List.not_mem_nil
  | cons hs _ _ ih => exact List.forall_mem_cons.mpr ⟨hs, ih⟩

theorem Spelled.numerals {p : Path} (h : Spelled p) : ∀ i name, p[i]? = some (.key name) →
    name.toList.all Char.isDigit = true → ∃ n, p[i + 1]? = some (.index n) := by
  induction h with
  | nil =>
    intro i name hi
    rw [List.getElem?_nil] at hi
    cases hi
  | cons _ hnumeral _ ih =>
    intro i name hi hall
    cases i with
    | zero =>
      obtain ⟨n, q, rfl⟩ := hnumeral name (Option.some.inj hi) hall
      exact ⟨n, rfl⟩
    | succ i => exact ih i name hi hall

theorem Readable.spelled {p : Path} (h : Readable p) : Spelled p := by
  have plain := h.plain
  have numerals := h.numerals
  clear h
  induction p with
  | nil => exact .nil
  | cons s p ih =>
    obtain ⟨hs, plain⟩ := List.forall_mem_cons.mp plain
    refine .cons hs ?_ (ih plain fun i => numerals (i + 1))
    rintro name rfl hall
    obtain ⟨n, hn⟩ := numerals 0 name rfl hall
    cases p with
    | nil => cases hn
    | cons t q =>
      obtain rfl : t = .index n := Option.some.inj hn
      exact ⟨n, q, rfl⟩

theorem Spelled.readable {p : Path} (h : Spelled p) (hne : p ≠ [])
    (hvisible : ∀ name, p = [.key name] → allBlank name = false) : Readable p :=
  ⟨hne, h.plain, h.numerals, hvisible⟩

end Shape

section Read

/-- What is read from groups are indices. -/
theorem Groups.spelled {cs : List Char} {steps : Path} (h : Groups cs steps) : Spelled steps := by
  induction h with
  | nil => exact .nil
  | cons hn _ ih => exact .index hn.limit ih

theorem Part.spelled {part : List Char} {steps : Path} (h : Part part steps) (hdot : '.' ∉ part) :
    Spelled steps := by
  cases h with
  | numeral hn => exact .index hn.limit .nil
  | @named name groups steps hname hgroups hother =>
    rw [keySteps_append]
    split
    · exact hgroups.spelled
    · rename_i hempty
      refine .cons ⟨?_, ?_⟩ ?_ hgroups.spelled
      · rw [ne_eq, ← String.toList_eq_nil_iff, String.toList_ofList, ← List.isEmpty_iff]
        exact hempty
      · rw [String.toList_ofList]
        intro c hc
        refine ⟨?_, hname c hc⟩
        rintro rfl
        exact hdot (List.mem_append_left groups hc)
      · rintro _ hkey hall
        cases hkey
        rw [String.toList_ofList] at hall
        -- all digits and no groups would have been an index
        obtain ⟨rfl, -⟩ | ⟨rest, n, more, -, rfl⟩ := hgroups.cases_start
        · rw [List.append_nil, hall] at hother
          cases hother
        · exact ⟨n, more, rfl⟩

theorem Part.steps_ne_nil {part : List Char} {steps : Path} (h : Part part steps) : steps ≠ [] := by
  cases h with
  | numeral => exact List.cons_ne_nil _ _
  | @named name groups steps _ hgroups hother =>
    rw [keySteps_append]
    split
    · rename_i hempty
      obtain ⟨rfl, -⟩ | ⟨rest, n, more, -, rfl⟩ := hgroups.cases_start
      · rw [List.isEmpty_iff.mp hempty] at hother
        cases hother
      · exact List.cons_ne_nil _ _
    · exact List.cons_ne_nil _ _

/-- A part that is a name and nothing else is that name. -/
theorem Part.eq_of_key {part : List Char} {name : String} (h : Part part [.key name]) :
    part = name.toList := by
  generalize hsteps : ([.key name] : Path) = steps at h
  cases h with
  | numeral => cases hsteps
  | @named name' groups more _ hgroups _ =>
    rw [keySteps_append] at hsteps
    obtain ⟨rfl, rfl⟩ | ⟨rest, n, more', -, rfl⟩ := hgroups.cases_start
    · split at hsteps
      · cases hsteps
      · cases hsteps
        rw [List.append_nil, String.toList_ofList]
    · split at hsteps <;> cases hsteps

theorem Parts.spelled {parts : List (List Char)} {p : Path} (h : Parts parts p)
    (hdots : ∀ part ∈ parts, '.' ∉ part) : Spelled p := by
  induction h with
  | nil => exact .nil
  | cons hpart _ ih =>
    obtain ⟨hdot, hdots⟩ := List.forall_mem_cons.mp hdots
    exact (hpart.spelled hdot).append (ih hdots)

theorem Parts.steps_eq_nil_iff {parts : List (List Char)} {p : Path} (h : Parts parts p) :
    p = [] ↔ parts = [] := by
  cases h with
  | nil => simp
  | cons hpart _ => simp [hpart.steps_ne_nil]

/-- A single name comes from a single part. -/
theorem Parts.eq_of_key {parts : List (List Char)} {name : String} (h : Parts parts [.key name]) :
    parts = [name.toList] := by
  generalize hp : ([.key name] : Path) = p at h
  cases h with
  | nil => cases hp
  | @cons part parts steps more hpart hrest =>
    obtain ⟨s, steps, rfl⟩ := List.exists_cons_of_ne_nil hpart.steps_ne_nil
    obtain ⟨rfl, htail⟩ := List.cons.inj hp
    obtain ⟨rfl, hmore⟩ := List.append_eq_nil_iff.mp htail.symm
    rw [hpart.eq_of_key, hrest.steps_eq_nil_iff.mp hmore]

/-- What was read from a text is readable. -/
theorem readable_of_parse {raw : String} {p : Path} (h : parse raw = .ok p) : Readable p := by
  obtain ⟨hblank, hparts⟩ := parse_eq_ok_iff.mp h
  have hspelled : Spelled p := hparts.spelled fun part => not_mem_of_mem_splitDots
  rw [splitDots_eq_splitOn] at hparts
  refine hspelled.readable ?_ ?_
  · intro hnil
    exact List.splitOn_ne_nil '.' raw.toList (hparts.steps_eq_nil_iff.mp hnil)
  · rintro name rfl
    have hraw : ['.'].intercalate (raw.toList.splitOn '.') = raw.toList :=
      List.intercalate_splitOn '.'
    rw [hparts.eq_of_key] at hraw
    have hname : name.toList = raw.toList := by simpa using hraw
    rw [allBlank, hname]
    exact hblank

end Read

section Written

theorem numeral_toDigits {n : Nat} (hn : n < indexLimit) : Numeral (Nat.toDigits 10 n) n where
  nonempty := Nat.toDigits_ne_nil
  digits := List.all_eq_true.mpr fun _ => Nat.isDigit_of_mem_toDigits (by decide) (by decide)
  value := natOfDigits_toDigits n
  limit := hn

theorem Groups.not_mem_dot {cs : List Char} {steps : Path} (h : Groups cs steps) : '.' ∉ cs := by
  induction h with
  | nil => exact List.not_mem_nil
  | @cons digits cs n steps hn _ ih =>
    have hdigits : '.' ∉ digits := hn.not_mem rfl
    simp [hdigits, ih]

theorem keySteps_toList {name : String} (h : name ≠ "") : keySteps name.toList = [.key name] := by
  have hne : name.toList.isEmpty = false :=
    List.isEmpty_eq_false_iff.mpr fun hnil => h (String.toList_eq_nil_iff.mp hnil)
  simp only [keySteps, hne, Bool.false_eq_true, if_false, String.ofList_toList]

section Part

variable {name groups : List Char} {steps : Path}

theorem not_mem_dot (hname : ∀ c ∈ name, c ≠ '.' ∧ c ≠ '[' ∧ c ≠ ']')
    (hgroups : Groups groups steps) : '.' ∉ name ++ groups := by
  rw [List.mem_append, not_or]
  exact ⟨fun hmem => (hname '.' hmem).1 rfl, hgroups.not_mem_dot⟩

/-- A name with groups is a part, unless it would pass for an index. -/
theorem part_of_name (hname : ∀ c ∈ name, c ≠ '.' ∧ c ≠ '[' ∧ c ≠ ']')
    (hgroups : Groups groups steps) (hother : name.all Char.isDigit = true → groups ≠ []) :
    Part (name ++ groups) (keySteps name ++ steps) := by
  refine .named (fun c hc => (hname c hc).2) hgroups ?_
  rw [List.all_append, Bool.and_eq_false_iff]
  obtain ⟨rfl, -⟩ | ⟨rest, n, more, rfl, -⟩ := hgroups.cases_start
  · exact .inl (Bool.eq_false_iff.mpr fun hall => hother hall rfl)
  · exact .inr rfl

/-- The text of steps is read back behind the beginning of a part, which the first indices among
them go on with. -/
theorem Spelled.parts {p : Path} (h : Spelled p)
    (hname : ∀ c ∈ name, c ≠ '.' ∧ c ≠ '[' ∧ c ≠ ']') (hgroups : Groups groups steps)
    (hother : name.all Char.isDigit = true → groups = [] → ∃ n q, p = .index n :: q) :
    Parts (splitDots (name ++ groups ++ tailChars p)) (keySteps name ++ steps ++ p) := by
  induction h generalizing name groups steps with
  | nil =>
    have hpart : Part (name ++ groups) (keySteps name ++ steps) :=
      part_of_name hname hgroups fun hall hnil => by
        obtain ⟨n, q, hq⟩ := hother hall hnil
        cases hq
    have hdot := not_mem_dot hname hgroups
    rw [splitDots_eq_splitOn, tailChars, List.append_nil, List.splitOn_eq_singleton hdot]
    exact .cons hpart .nil
  | @cons s p hs hnumeral _ ih =>
    cases s with
    | index n =>
      have hgroup : Groups (stepChars (.index n)) [.index n] := .cons (numeral_toDigits hs) .nil
      have hrest := ih hname (hgroups.append hgroup) fun _ hnil =>
        absurd (List.append_eq_nil_iff.mp hnil).2 (List.cons_ne_nil _ _)
      simpa [tailChars] using hrest
    | key k =>
      have hpart : Part (name ++ groups) (keySteps name ++ steps) :=
        part_of_name hname hgroups fun hall hnil => by
          obtain ⟨n, q, hq⟩ := hother hall hnil
          cases hq
      have hdot := not_mem_dot hname hgroups
      -- the name begins a part of its own, with nothing before it
      have hrest := ih hs.2 .nil fun hall _ => hnumeral k rfl hall
      rw [keySteps_toList hs.1, List.append_nil, List.append_nil] at hrest
      rw [splitDots_eq_splitOn, tailChars, stepChars,
        List.splitOn_append_cons_self_of_not_mem hdot, ← splitDots_eq_splitOn]
      exact .cons hpart hrest

end Part

theorem Readable.parts {p : Path} (h : Readable p) : Parts (splitDots p.chars) p := by
  have hspelled := h.spelled
  cases p with
  | nil => exact absurd rfl h.nonempty
  | cons s p =>
    cases s with
    | index n =>
      have hparts : Parts (splitDots ([] ++ [] ++ tailChars (.index n :: p)))
          (keySteps [] ++ [] ++ .index n :: p) :=
        hspelled.parts (fun c hc => absurd hc List.not_mem_nil) .nil fun _ _ => ⟨n, p, rfl⟩
      exact hparts
    | key k =>
      cases hspelled with
      | cons hs hnumeral hrest =>
        have hparts := hrest.parts hs.2 .nil fun hall _ => hnumeral k rfl hall
        rw [keySteps_toList hs.1, List.append_nil, List.append_nil] at hparts
        exact hparts

/-- A readable path does not look blank. -/
theorem Readable.not_allBlank {p : Path} (h : Readable p) : allBlank p.text = false := by
  have htail : ∀ s q, (tailChars (s :: q)).all isBlank = false := by
    intro s q
    cases s <;> rfl
  rw [allBlank, text, String.toList_ofList]
  cases p with
  | nil => exact absurd rfl h.nonempty
  | cons s p =>
    cases s with
    | index n => rfl
    | key k =>
      rw [chars, stepChars, List.all_append, Bool.and_eq_false_iff]
      cases p with
      | nil => exact .inl (h.visible k rfl)
      | cons t q => exact .inr (htail t q)

/-- A readable path is read back from its text. -/
theorem parse_text {p : Path} (h : Readable p) : parse p.text = .ok p := by
  rw [parse_eq_ok_iff, text, String.toList_ofList]
  exact ⟨h.not_allBlank, h.parts⟩

end Written

theorem Readable.join {p q : Path} (hp : Readable p) (hq : Readable q) : Readable (p.join q) := by
  refine (hp.spelled.append hq.spelled).readable ?_ ?_
  · exact List.append_ne_nil_of_left_ne_nil hp.nonempty q
  · intro name hname
    obtain ⟨hnil, -⟩ | ⟨-, hnil⟩ := List.append_eq_singleton_iff.mp hname
    · exact absurd hnil hp.nonempty
    · exact absurd hnil hq.nonempty

theorem readable_index {n : Nat} (hn : n < indexLimit) : Readable [.index n] :=
  (Spelled.index hn .nil).readable (List.cons_ne_nil _ _) fun _ hname => by cases hname

theorem Built.readable {p : Path} (h : Built p) (hne : p ≠ []) : Readable p := by
  induction h with
  | root => exact absurd rfl hne
  | @join p q raw _ hq ih =>
    have hread : Readable q := readable_of_parse hq
    by_cases hp : p = []
    · subst hp
      exact hread
    · exact (ih hp).join hread
  | @index p n _ hn ih =>
    have hindex : Readable [.index n] := readable_index hn
    by_cases hp : p = []
    · subst hp
      exact hindex
    · exact (ih hp).join hindex

/-- Paths that can be built are read back from their texts, so that different ones have different
texts; and a path is the reading of some text when it is readable. -/
theorem text_faithful :
    (∀ p : Path, Built p → p ≠ [] → parse p.text = .ok p) ∧
    (∀ p q : Path, Built p → Built q → p ≠ [] → q ≠ [] → p.text = q.text → p = q) ∧
    ∀ p : Path, (∃ raw, parse raw = .ok p) ↔ Readable p := by
  have hback : ∀ p : Path, Built p → p ≠ [] → parse p.text = .ok p :=
    fun p hp hne => parse_text (hp.readable hne)
  refine ⟨hback, ?_, ?_⟩
  · intro p q hp hq hpne hqne htext
    have hread := hback p hp hpne
    rw [htext, hback q hq hqne] at hread
    exact (Except.ok.inj hread).symm
  · intro p
    constructor
    · rintro ⟨raw, hraw⟩
      exact readable_of_parse hraw
    · intro h
      exact ⟨p.text, parse_text h⟩

/-- A name of digits before an index and a name of blanks between two others. -/
theorem text_faithful_digits_and_blanks :
    parse (text [.key "12", .index 3, .index 0, .key " ", .key "x"])
      = .ok [.key "12", .index 3, .index 0, .key " ", .key "x"] := by
  have hdigits : parse "12[3]" = .ok [.key "12", .index 3] := rfl
  have hblank : parse " .x" = .ok [.key " ", .key "x"] := rfl
  have hzero : 0 < indexLimit := by decide
  have hbuilt := ((Built.root.join hdigits).index hzero).join hblank
  exact text_faithful.1 _ hbuilt (List.cons_ne_nil _ _)

end Path

end CatalogAssembly
