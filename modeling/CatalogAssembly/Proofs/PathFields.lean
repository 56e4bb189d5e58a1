import CatalogAssembly.Proofs.PathSpelling

/-!
# Parts of a path text as field names

A text without brackets is a list of names between dots, and where only objects are met a
path reads the fields of these names, one inside the other. A part of digits only is kept as a
number, though, and an object is asked for the field that is named by the numeral of this
number. The numeral is the part itself unless the part begins with a zero that could be left
out: the text `01` reads the field `1`. A path reads what a walk along the parts of its text
reads exactly when none of them begins with such a zero: `readsFields`.
-/
namespace CatalogAssembly

open Json (Value)

namespace Text

theorem digitValue_lt {c : Char} (h : c.isDigit = true) : digitValue c < 10 := by
  have hbounds := Char.isDigit_iff_toNat.mp h
  simp only [digitValue, Char.reduceToNat] at hbounds ⊢
  omega

theorem toDigits_digitValue {c : Char} (h : c.isDigit = true) :
    Nat.toDigits 10 (digitValue c) = [c] := by
  have hback : (digitValue c).digitChar = c := by
    apply Char.toNat_inj.mp
    have hlow := (Char.isDigit_iff_toNat.mp h).1
    rw [Nat.toNat_digitChar_of_lt_ten (digitValue_lt h)]
    simp only [digitValue, Char.reduceToNat] at hlow ⊢
    omega
  rw [Nat.toDigits_of_lt_base (digitValue_lt h), hback]

/-- Digits behind the numeral of a number go on with it. -/
theorem toDigits_append {cs : List Char} (h : cs.all Char.isDigit = true) {n : Nat} (hn : 0 < n) :
    Nat.toDigits 10 n ++ cs = Nat.toDigits 10 (cs.foldl (fun n c => 10 * n + digitValue c) n) := by
  induction cs generalizing n with
  | nil => rw [List.append_nil, List.foldl_nil]
  | cons c cs ih =>
    rw [List.all_cons, Bool.and_eq_true] at h
    obtain ⟨hc, hcs⟩ := h
    have hdigit : Nat.toDigits 10 n ++ [c] = Nat.toDigits 10 (10 * n + digitValue c) := by
      rw [← toDigits_digitValue hc]
      exact Nat.toDigits_append_toDigits (by decide) hn (digitValue_lt hc)
    rw [List.foldl_cons, ← ih hcs (by omega), ← hdigit, List.append_assoc, List.singleton_append]

/-- A number above zero is not written with a zero in front. -/
theorem head?_toDigits {n : Nat} (hn : 0 < n) : (Nat.toDigits 10 n).head? ≠ some '0' := by
  induction n using Nat.strongRecOn with
  | ind n ih =>
    by_cases hlt : n < 10
    · rw [Nat.toDigits_of_lt_base hlt, List.head?_cons, ne_eq, Option.some.injEq]
      intro h
      have hchar := Nat.toNat_digitChar_of_lt_ten hlt
      rw [h] at hchar
      simp only [Char.reduceToNat] at hchar
      omega
    · have hhead := ih (n / 10) (by omega) (by omega)
      obtain ⟨c, cs, hcs⟩ :=
        List.exists_cons_of_ne_nil (Nat.toDigits_ne_nil (n := n / 10) (b := 10))
      rw [hcs] at hhead
      rwa [Nat.toDigits_of_base_le (by decide) (by omega), hcs, List.cons_append]

/-- The digits that are written for their value are those without a zero that could be left
out. -/
theorem toDigits_natOfDigits_iff {cs : List Char} (hne : cs ≠ [])
    (h : cs.all Char.isDigit = true) :
    Nat.toDigits 10 (natOfDigits cs) = cs ↔ (cs.head? = some '0' → cs = ['0']) := by
  constructor
  · intro hback hhead
    have hzero : natOfDigits cs = 0 := by
      rw [← hback] at hhead
      exact Nat.eq_zero_of_not_pos fun hpos => head?_toDigits hpos hhead
    rw [hzero] at hback
    exact hback.symm
  · intro hhead
    cases cs with
    | nil => exact absurd rfl hne
    | cons c cs =>
      by_cases hc : c = '0'
      · rw [hhead (by rw [hc, List.head?_cons])]
        rfl
      · rw [List.all_cons, Bool.and_eq_true] at h
        have hpos : 0 < digitValue c := by
          have hlow := (Char.isDigit_iff_toNat.mp h.1).1
          have hzero : c.toNat ≠ '0'.toNat := fun heq => hc (Char.toNat_inj.mp heq)
          simp only [digitValue]
          omega
        have happend := toDigits_append h.2 hpos
        rw [toDigits_digitValue h.1, List.singleton_append] at happend
        rw [natOfDigits, List.foldl_cons, Nat.mul_zero, Nat.zero_add, ← happend]

end Text

namespace Path

open Text (natOfDigits)

/-- The field that a part of a path text is read as. -/
def fieldName (part : String) : String :=
  if part.toList.all Char.isDigit then toString (natOfDigits part.toList) else part

/-- A numeral that begins with a zero that could be left out. -/
def Padded (part : String) : Prop :=
  part.toList.all Char.isDigit = true ∧ part.toList.head? = some '0' ∧ part ≠ "0"

/-- The value that names lead to, one field inside the other. -/
def walk : List String → Value → Option Value
  | [], v => some v
  | name :: names, v => (v.field? name).bind (walk names)

/-- Nothing but objects is met before the last name is walked. -/
def MeetsObjects : List String → Value → Prop
  | [], _ => True
  | name :: names, v =>
    (∃ fields, v = .object fields) ∧ ∀ c, v.field? name = some c → MeetsObjects names c

theorem fieldName_eq_iff {part : String} (hne : part ≠ "") :
    fieldName part = part ↔ ¬ Padded part := by
  unfold fieldName Padded
  cases hall : part.toList.all Char.isDigit with
  | false => simp
  | true =>
    have hlist : part.toList ≠ [] := fun hnil => hne (String.toList_eq_nil_iff.mp hnil)
    have hback := Text.toDigits_natOfDigits_iff hlist hall
    have hzero : part = "0" ↔ part.toList = ['0'] := String.toList_inj.symm
    rw [if_pos rfl, Nat.toString_eq_ofList_toDigits, ← String.toList_inj, String.toList_ofList,
      hback, ne_eq, hzero]
    simp

section Walking

/-- A path that meets only objects walks along the names of its steps. -/
theorem get?_eq_walk {p : Path} {v : Value} (h : MeetsObjects (p.map Step.name) v) :
    p.get? v = walk (p.map Step.name) v := by
  induction p generalizing v with
  | nil => rfl
  | cons s p ih =>
    obtain ⟨⟨fields, rfl⟩, hrest⟩ := h
    rw [get?_cons, List.map_cons, walk]
    exact Option.bind_congr fun c hc => ih (hrest c hc)

variable {names : List String} (v : Value)

theorem walk_nest : walk names (nest (names.map .key) v) = some v := by
  induction names with
  | nil => rfl
  | cons name names ih => simp [walk, nest, Value.field?, ih]

theorem meetsObjects_nest : MeetsObjects names (nest (names.map .key) v) := by
  induction names with
  | nil => exact trivial
  | cons name names ih =>
    refine ⟨⟨_, rfl⟩, fun c hc => ?_⟩
    obtain rfl : nest (names.map .key) v = c := by simpa [nest, Value.field?] using hc
    exact ih

/-- In a document with one field in each object the walk gives away the names. -/
theorem names_eq_of_get?_nest {p : Path} {w : Value} (hlength : p.length = names.length)
    (h : p.get? (nest (names.map .key) v) = some w) : p.map Step.name = names := by
  induction names generalizing p with
  | nil => rw [List.length_eq_zero_iff.mp hlength, List.map_nil]
  | cons name names ih =>
    obtain ⟨s, p, rfl⟩ := List.exists_cons_of_length_eq_add_one hlength
    rw [get?_cons, Option.bind_eq_some_iff] at h
    obtain ⟨c, hc, h⟩ := h
    rw [List.map_cons, nest, Value.child?, List.lookup_cons] at hc
    split at hc
    · rename_i hname
      obtain rfl := Option.some.inj hc
      rw [List.map_cons, ih (Nat.succ.inj hlength) h, eq_of_beq hname]
    · cases hc

end Walking

section Reading

/-- The characters of a part are characters of the text. -/
theorem mem_of_mem_splitDots {cs part : List Char} {c : Char} (h : part ∈ splitDots cs)
    (hc : c ∈ part) : c ∈ cs := by
  induction cs generalizing part with
  | nil =>
    rw [List.mem_singleton.mp h] at hc
    exact absurd hc List.not_mem_nil
  | cons x cs ih =>
    rw [splitDots_eq_splitOn, List.splitOn_cons_eq_if_modifyHead, ← splitDots_eq_splitOn] at h
    obtain ⟨first, others, hparts⟩ := List.exists_cons_of_ne_nil
      (splitDots_eq_splitOn cs ▸ List.splitOn_ne_nil '.' cs)
    rw [hparts] at h ih
    split at h
    · rcases List.mem_cons.mp h with rfl | h
      · exact absurd hc List.not_mem_nil
      · exact List.mem_cons_of_mem x (ih h hc)
    · rcases List.mem_cons.mp h with rfl | h
      · rcases List.mem_cons.mp hc with rfl | hc
        · exact List.mem_cons_self
        · exact List.mem_cons_of_mem x (ih List.mem_cons_self hc)
      · exact List.mem_cons_of_mem x (ih (List.mem_cons_of_mem first h) hc)

/-- A part without brackets is one step. -/
theorem Part.exists_step {part : List Char} {steps : Path} (h : Part part steps)
    (hbracket : '[' ∉ part) :
    ∃ s, steps = [s] ∧ s.name = fieldName (String.ofList part) := by
  cases h with
  | @numeral _ n hn =>
    refine ⟨_, rfl, ?_⟩
    rw [fieldName, String.toList_ofList, if_pos hn.digits, hn.value, Step.name]
  | @named name groups steps _ hgroups hother =>
    obtain ⟨rfl, rfl⟩ | ⟨rest, n, more, rfl, -⟩ := hgroups.cases_start
    · have hne : name.isEmpty = false := by
        rw [List.isEmpty_eq_false_iff]
        rintro rfl
        cases hother
      refine ⟨.key (String.ofList name), by simp [keySteps, hne], ?_⟩
      rw [fieldName, String.toList_ofList, hother, Step.name, List.append_nil]
      rfl
    · simp at hbracket

theorem Parts.names_eq {parts : List (List Char)} {p : Path} (h : Parts parts p)
    (hbracket : ∀ part ∈ parts, '[' ∉ part) :
    p.map Step.name = (parts.map String.ofList).map fieldName := by
  induction h with
  | nil => rfl
  | cons hpart _ ih =>
    obtain ⟨hhead, htail⟩ := List.forall_mem_cons.mp hbracket
    obtain ⟨s, rfl, hs⟩ := hpart.exists_step hhead
    simp only [List.singleton_append, List.map_cons, hs, ih htail]

theorem Part.ne_nil {part : List Char} {steps : Path} (h : Part part steps) : part ≠ [] := by
  rintro rfl
  cases readPart_eq_ok_iff.mpr h

theorem Parts.ne_nil {parts : List (List Char)} {p : Path} (h : Parts parts p) :
    ∀ part ∈ parts, part ≠ [] := by
  induction h with
  | nil => exact fun part hmem => absurd hmem List.not_mem_nil
  | cons hpart _ ih => exact List.forall_mem_cons.mpr ⟨hpart.ne_nil, ih⟩

end Reading

/-- What a path without brackets reads in documents in which it meets only objects, given the parts
of its text. -/
structure ReadsFields (parts : List String) (p : Path) : Prop where
  /-- Zeros that could be left out of a numeral are left out of the name of its field, ... -/
  walks (doc : Value) (h : MeetsObjects (parts.map fieldName) doc) :
    p.get? doc = walk (parts.map fieldName) doc
  /-- ... and the parts are the names of the fields exactly when there are no such zeros. -/
  plain : (∀ doc, MeetsObjects parts doc → p.get? doc = walk parts doc) ↔
    ∀ part ∈ parts, ¬ Padded part

theorem map_fieldName_eq_iff {parts : List String} (hne : ∀ part ∈ parts, part ≠ "") :
    parts.map fieldName = parts ↔ ∀ part ∈ parts, ¬ Padded part := by
  have hid : parts.map fieldName = parts ↔ ∀ part ∈ parts, fieldName part = part := by
    simpa using List.map_inj_left (l := parts) (f := fieldName) (g := id)
  rw [hid]
  exact forall₂_congr fun part hmem => fieldName_eq_iff (hne part hmem)

/-- A text without brackets is read as the fields that its parts name, apart from leading zeros. -/
theorem readsFields {raw : String} {p : Path} (h : parse raw = .ok p)
    (hbracket : ∀ c ∈ raw.toList, c ≠ '[' ∧ c ≠ ']') :
    ReadsFields ((splitDots raw.toList).map String.ofList) p := by
  have hparts := (parse_eq_ok_iff.mp h).2
  have hnames := hparts.names_eq fun part hmem hmem' =>
    (hbracket '[' (mem_of_mem_splitDots hmem hmem')).1 rfl
  have hne : ∀ part ∈ (splitDots raw.toList).map String.ofList, part ≠ "" := by
    rintro _ hmem rfl
    obtain ⟨part, hpart, hempty⟩ := List.mem_map.mp hmem
    exact hparts.ne_nil part hpart (String.ofList_eq_empty_iff.mp hempty)
  generalize (splitDots raw.toList).map String.ofList = parts at hnames hne ⊢
  have hwalks : ∀ doc, MeetsObjects (parts.map fieldName) doc →
      p.get? doc = walk (parts.map fieldName) doc := by
    intro doc hdoc
    rw [← hnames] at hdoc ⊢
    exact get?_eq_walk hdoc
  refine ⟨hwalks, ?_⟩
  rw [← map_fieldName_eq_iff hne]
  constructor
  · intro hall
    have hlength : p.length = parts.length := by simpa using congrArg List.length hnames
    have hread := (hall _ (meetsObjects_nest .null)).trans (walk_nest .null)
    rw [← hnames, names_eq_of_get?_nest .null hlength hread]
  · intro hplain
    rwa [hplain] at hwalks

/-- The numeral of a field between two names. -/
theorem readsFields_numeral :
    parse "discs.10.title" = .ok [.key "discs", .index 10, .key "title"] ∧
      ReadsFields ["discs", "10", "title"] [.key "discs", .index 10, .key "title"] := by
  have hparse : parse "discs.10.title" = .ok [.key "discs", .index 10, .key "title"] := rfl
  exact ⟨hparse, readsFields hparse (by simp)⟩

/-- The field `01` of an object is there, and its text reads the field `1`. -/
theorem padded_field_missed :
    parse "01" = .ok [.index 1] ∧ MeetsObjects ["01"] (.object [("01", .ofInt 7)]) ∧
      walk ["01"] (.object [("01", .ofInt 7)]) = some (.ofInt 7) ∧
      get? [.index 1] (.object [("01", .ofInt 7)]) = none :=
  ⟨rfl, ⟨⟨_, rfl⟩, fun _ _ => trivial⟩, rfl, rfl⟩

end Path

end CatalogAssembly
