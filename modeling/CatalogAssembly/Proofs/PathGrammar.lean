import CatalogAssembly.Path.Text

/-!
# The grammar of path texts

A text is a path when the parts between its dots are: a part is a numeral, or a name
without brackets followed by numerals in brackets, one of which may be left out. The
readers of the parts accept this grammar and nothing else, `readPart_eq_ok_iff` and
`parse_eq_ok_iff`. A numeral has a value below the limit of an index, and a part of
digits only is always an index, never a name.
-/
namespace CatalogAssembly.Path

open Text (natOfDigits allBlank)

/-- Decimal digits whose value is an index. -/
structure Numeral (cs : List Char) (n : Nat) : Prop where
  nonempty : cs ≠ []
  digits : cs.all Char.isDigit = true
  value : natOfDigits cs = n
  limit : n < indexLimit

/-- Numerals in brackets, one after the other. -/
inductive Groups : List Char → Path → Prop
  | nil : Groups [] []
  | cons {digits cs : List Char} {n : Nat} {steps : Path} (h : Numeral digits n)
      (rest : Groups cs steps) : Groups ('[' :: (digits ++ ']' :: cs)) (.index n :: steps)

/-- The step of a name; an empty name is none. -/
def keySteps (name : List Char) : Path := if name.isEmpty then [] else [.key (String.ofList name)]

/-- A part of a path text and its steps. -/
inductive Part : List Char → Path → Prop
  | numeral {digits : List Char} {n : Nat} (h : Numeral digits n) : Part digits [.index n]
  | named {name groups : List Char} {steps : Path} (hname : ∀ c ∈ name, c ≠ '[' ∧ c ≠ ']')
      (hgroups : Groups groups steps) (other : (name ++ groups).all Char.isDigit = false) :
      Part (name ++ groups) (keySteps name ++ steps)

/-- Parts in order and the steps of all of them. -/
inductive Parts : List (List Char) → Path → Prop
  | nil : Parts [] []
  | cons {part : List Char} {parts : List (List Char)} {steps more : Path} (h : Part part steps)
      (rest : Parts parts more) : Parts (part :: parts) (steps ++ more)

section Splitting

theorem splitDots_eq_splitOn (cs : List Char) : splitDots cs = cs.splitOn '.' := by
  induction cs with
  | nil => rfl
  | cons c cs ih =>
    rw [splitDots, List.splitOn_cons_eq_if_modifyHead, ih]
    by_cases hc : c = '.'
    · subst hc
      rfl
    · rw [if_neg hc, if_neg (by simpa using hc)]
      obtain ⟨part, parts, hparts⟩ := List.exists_cons_of_ne_nil (List.splitOn_ne_nil '.' cs)
      rw [hparts]
      rfl

theorem not_mem_of_mem_splitDots {cs part : List Char} (h : part ∈ splitDots cs) : '.' ∉ part := by
  induction cs generalizing part with
  | nil =>
    rw [List.mem_singleton.mp h]
    exact List.not_mem_nil
  | cons c cs ih =>
    rw [splitDots] at h
    split at h
    · rcases List.mem_cons.mp h with rfl | h
      · exact List.not_mem_nil
      · exact ih h
    · rename_i hc
      cases hs : splitDots cs with
      | nil => exact absurd (splitDots_eq_splitOn cs ▸ hs) (List.splitOn_ne_nil '.' cs)
      | cons first others =>
        rw [hs] at h ih
        rcases List.mem_cons.mp h with rfl | h
        · have hfirst : '.' ∉ first := ih List.mem_cons_self
          simpa [Ne.symm hc] using hfirst
        · exact ih (List.mem_cons_of_mem first h)

end Splitting

section Numerals

variable {digits : List Char} {n : Nat} {step : Step}

theorem Numeral.not_mem {c : Char} (h : Numeral digits n) (hc : c.isDigit = false) :
    c ∉ digits := by
  intro hmem
  rw [List.all_eq_true.mp h.digits c hmem] at hc
  cases hc

theorem readIndex_eq_ok_iff :
    readIndex digits = .ok step ↔
      natOfDigits digits < indexLimit ∧ step = .index (natOfDigits digits) := by
  unfold readIndex
  by_cases h : natOfDigits digits < indexLimit
  · simp [h, eq_comm]
  · simp [h]

theorem readBracketed_eq_ok_iff :
    readBracketed digits = .ok step ↔ ∃ n, Numeral digits n ∧ step = .index n := by
  unfold readBracketed
  split
  · rename_i h
    constructor
    · exact nofun
    · rintro ⟨n, hn, -⟩
      simp [hn.nonempty, hn.digits] at h
  · rename_i h
    rw [Bool.not_eq_true, Bool.or_eq_false_iff, List.isEmpty_eq_false_iff, Bool.not_eq_false'] at h
    rw [readIndex_eq_ok_iff]
    constructor
    · rintro ⟨hlimit, rfl⟩
      exact ⟨_, ⟨h.1, h.2, rfl, hlimit⟩, rfl⟩
    · rintro ⟨n, hn, rfl⟩
      rw [hn.value]
      exact ⟨hn.limit, rfl⟩

theorem Groups.append {cs cs' : List Char} {steps steps' : Path} (h : Groups cs steps)
    (h' : Groups cs' steps') : Groups (cs ++ cs') (steps ++ steps') := by
  induction h with
  | nil => exact h'
  | @cons digits cs n steps hn rest ih =>
    have hcons : Groups ('[' :: (digits ++ ']' :: (cs ++ cs'))) (.index n :: (steps ++ steps')) :=
      .cons hn ih
    simpa using hcons

/-- Groups begin with a bracket unless there are none. -/
theorem Groups.cases_start {cs : List Char} {steps : Path} (h : Groups cs steps) :
    (cs = [] ∧ steps = []) ∨
      ∃ rest n more, cs = '[' :: rest ∧ steps = .index n :: more := by
  cases h with
  | nil => exact .inl ⟨rfl, rfl⟩
  | cons hn rest => exact .inr ⟨_, _, _, rfl, rfl⟩

/-- What follows an open bracket and some digits: the other digits, the bracket that closes them,
and more groups. -/
def Closes (inside cs : List Char) (steps : Path) : Prop :=
  ∃ digits rest n more, cs = digits ++ ']' :: rest ∧ Numeral (inside ++ digits) n ∧
    Groups rest more ∧ steps = .index n :: more

theorem groups_cons_iff {c : Char} {cs : List Char} {steps : Path} :
    Groups (c :: cs) steps ↔ c = '[' ∧ Closes [] cs steps := by
  constructor
  · intro h
    cases h with
    | @cons digits rest n more hn hrest =>
      exact ⟨rfl, digits, rest, n, more, rfl, hn, hrest, rfl⟩
  · rintro ⟨rfl, digits, rest, n, more, rfl, hn, hrest, rfl⟩
    exact .cons hn hrest

theorem closes_bracket_iff {inside cs : List Char} {steps : Path} :
    Closes inside (']' :: cs) steps ↔
      ∃ n more, Numeral inside n ∧ Groups cs more ∧ steps = .index n :: more := by
  constructor
  · rintro ⟨digits, rest, n, more, hcs, hn, hrest, rfl⟩
    cases digits with
    | nil =>
      obtain rfl : cs = rest := (List.cons.inj hcs).2
      rw [List.append_nil] at hn
      exact ⟨n, more, hn, hrest, rfl⟩
    | cons c digits =>
      -- a bracket is no digit
      obtain rfl : ']' = c := (List.cons.inj hcs).1
      have hmem : ']' ∈ inside ++ ']' :: digits :=
        List.mem_append_right inside List.mem_cons_self
      exact absurd hmem (hn.not_mem rfl)
  · rintro ⟨n, more, hn, hrest, rfl⟩
    exact ⟨[], cs, n, more, rfl, by rwa [List.append_nil], hrest, rfl⟩

theorem closes_cons_iff {inside cs : List Char} {c : Char} {steps : Path} (hc : c ≠ ']') :
    Closes inside (c :: cs) steps ↔ Closes (inside ++ [c]) cs steps := by
  constructor
  · rintro ⟨digits, rest, n, more, hcs, hn, hrest, rfl⟩
    cases digits with
    | nil => exact absurd (List.cons.inj hcs).1 hc
    | cons c' digits =>
      obtain ⟨rfl, rfl⟩ := List.cons.inj hcs
      exact ⟨digits, rest, n, more, rfl, by rwa [List.append_assoc], hrest, rfl⟩
  · rintro ⟨digits, rest, n, more, rfl, hn, hrest, rfl⟩
    rw [List.append_assoc] at hn
    exact ⟨c :: digits, rest, n, more, rfl, hn, hrest, rfl⟩

theorem not_closes_nil {inside : List Char} {steps : Path} : ¬ Closes inside [] steps := by
  rintro ⟨digits, rest, n, more, hcs, -⟩
  exact List.append_ne_nil_of_right_ne_nil digits (List.cons_ne_nil ']' rest) hcs.symm

end Numerals

section Reading

theorem bind_eq_ok_iff {ε α β : Type} {r : Except ε α} {next : α → Except ε β} {y : β} :
    (r >>= next) = .ok y ↔ ∃ x, r = .ok x ∧ next x = .ok y := by
  cases r with
  | error e => simp [bind, Except.bind]
  | ok x => simp [bind, Except.bind]

/-- The groups of a part are read as the grammar has them, from outside a bracket and inside. -/
theorem readGroups_eq_ok_iff (part cs : List Char) :
    (∀ steps, readGroups part none cs = .ok steps ↔ Groups cs steps) ∧
      ∀ inside steps, readGroups part (some inside) cs = .ok steps ↔
        Closes inside.reverse cs steps := by
  induction cs with
  | nil =>
    constructor
    · intro steps
      constructor
      · intro h
        cases h
        exact .nil
      · intro h
        cases h
        rfl
    · intro inside steps
      exact ⟨nofun, fun h => absurd h not_closes_nil⟩
  | cons c cs ih =>
    obtain ⟨ihout, ihin⟩ := ih
    constructor
    · intro steps
      rw [readGroups, groups_cons_iff]
      by_cases hc : c = '['
      · simp only [hc, true_and]
        exact ihin [] steps
      · simp only [hc, false_and, iff_false]
        exact nofun
    · intro inside steps
      rw [readGroups]
      by_cases hc : c = ']'
      · subst hc
        simp only [if_true, bind_eq_ok_iff, closes_bracket_iff, readBracketed_eq_ok_iff, ihout]
        constructor
        · rintro ⟨_, ⟨n, hn, rfl⟩, more, hmore, hsteps⟩
          cases hsteps
          exact ⟨n, more, hn, hmore, rfl⟩
        · rintro ⟨n, more, hn, hmore, rfl⟩
          exact ⟨_, ⟨n, hn, rfl⟩, more, hmore, rfl⟩
      · rw [if_neg hc, ihin, List.reverse_cons, closes_cons_iff hc]

/-- The name of a part ends where its groups begin. -/
theorem splitName {name groups : List Char} {steps : Path} (hname : ∀ c ∈ name, c ≠ '[' ∧ c ≠ ']')
    (h : Groups groups steps) :
    (name ++ groups).takeWhile (· ≠ '[') = name ∧ (name ++ groups).dropWhile (· ≠ '[') = groups := by
  have hkept : ∀ c ∈ name, decide (c ≠ '[') = true := fun c hc => decide_eq_true (hname c hc).1
  rw [List.takeWhile_append_of_pos hkept, List.dropWhile_append_of_pos hkept]
  obtain ⟨rfl, -⟩ | ⟨rest, n, more, rfl, -⟩ := h.cases_start
  · exact ⟨List.append_nil name, rfl⟩
  · exact ⟨List.append_nil name, rfl⟩

theorem keySteps_append (name : List Char) (steps : Path) :
    keySteps name ++ steps
      = if name.isEmpty then steps else .key (String.ofList name) :: steps := by
  unfold keySteps
  split <;> rfl

/-- A part of digits only is read as an index. -/
theorem readPart_numeral_iff {part : List Char} {steps : Path}
    (h : part.all Char.isDigit = true) :
    readPart part = .ok steps ↔ ∃ n, Numeral part n ∧ steps = [.index n] := by
  unfold readPart
  by_cases hne : part = []
  · subst hne
    constructor
    · exact nofun
    · rintro ⟨n, hn, -⟩
      exact absurd rfl hn.nonempty
  · simp only [List.isEmpty_eq_false_iff.mpr hne, h, bind_eq_ok_iff, readIndex_eq_ok_iff,
      Bool.false_eq_true, if_false, if_true]
    constructor
    · rintro ⟨_, ⟨hlimit, rfl⟩, hsteps⟩
      cases hsteps
      exact ⟨_, ⟨hne, h, rfl, hlimit⟩, rfl⟩
    · rintro ⟨n, hn, rfl⟩
      exact ⟨_, ⟨hn.value ▸ hn.limit, rfl⟩, by rw [hn.value]⟩

/-- Any other part is read as a name and its groups. -/
theorem readPart_named_iff {part : List Char} {steps : Path}
    (h : part.all Char.isDigit = false) :
    readPart part = .ok steps ↔
      ']' ∉ part.takeWhile (· ≠ '[') ∧ ∃ more, Groups (part.dropWhile (· ≠ '[')) more ∧
        steps = keySteps (part.takeWhile (· ≠ '[')) ++ more := by
  have hne : part.isEmpty = false := by
    rw [List.isEmpty_eq_false_iff]
    rintro rfl
    cases h
  unfold readPart
  simp only [hne, h, Bool.false_eq_true, if_false]
  generalize part.takeWhile (· ≠ '[') = name
  generalize part.dropWhile (· ≠ '[') = groups
  by_cases hclosed : ']' ∈ name
  · have hcontains : name.contains ']' = true := List.contains_iff_mem.mpr hclosed
    simp only [hcontains, hclosed, if_true, not_true_eq_false, false_and, iff_false]
    exact nofun
  · have hcontains : name.contains ']' = false := by
      rw [Bool.eq_false_iff, ne_eq, List.contains_iff_mem]
      exact hclosed
    simp only [hcontains, hclosed, Bool.false_eq_true, if_false, not_false_eq_true, true_and,
      bind_eq_ok_iff, (readGroups_eq_ok_iff part groups).1, keySteps_append, Except.ok.injEq]
    constructor
    · rintro ⟨more, hmore, rfl⟩
      exact ⟨more, hmore, rfl⟩
    · rintro ⟨more, hmore, rfl⟩
      exact ⟨more, hmore, rfl⟩

/-- A part is read as the grammar has it. -/
theorem readPart_eq_ok_iff {part : List Char} {steps : Path} :
    readPart part = .ok steps ↔ Part part steps := by
  constructor
  · intro h
    cases hdigits : part.all Char.isDigit with
    | true =>
      obtain ⟨n, hn, rfl⟩ := (readPart_numeral_iff hdigits).mp h
      exact .numeral hn
    | false =>
      obtain ⟨hclosed, more, hmore, rfl⟩ := (readPart_named_iff hdigits).mp h
      have hname : ∀ c ∈ part.takeWhile (· ≠ '['), c ≠ '[' ∧ c ≠ ']' := fun c hc =>
        ⟨of_decide_eq_true (List.all_eq_true.mp List.all_takeWhile c hc),
          fun hbracket => hclosed (hbracket ▸ hc)⟩
      have hpart : part.takeWhile (· ≠ '[') ++ part.dropWhile (· ≠ '[') = part :=
        List.takeWhile_append_dropWhile
      have hnamed := Part.named hname hmore (by rw [hpart]; exact hdigits)
      rwa [hpart] at hnamed
  · intro h
    cases h with
    | @numeral _ n hn => exact (readPart_numeral_iff hn.digits).mpr ⟨n, hn, rfl⟩
    | @named name groups more hname hgroups hother =>
      obtain ⟨htake, hdrop⟩ := splitName hname hgroups
      rw [readPart_named_iff hother, htake, hdrop]
      exact ⟨fun hclosed => (hname ']' hclosed).2 rfl, more, hgroups, rfl⟩

theorem readParts_eq_ok_iff {parts : List (List Char)} {p : Path} :
    readParts parts = .ok p ↔ Parts parts p := by
  induction parts generalizing p with
  | nil =>
    constructor
    · intro h
      cases h
      exact .nil
    · intro h
      cases h
      rfl
  | cons part parts ih =>
    simp only [readParts, bind_eq_ok_iff, readPart_eq_ok_iff, ih]
    constructor
    · rintro ⟨steps, hsteps, more, hmore, hp⟩
      cases hp
      exact .cons hsteps hmore
    · intro h
      cases h with
      | @cons _ _ steps more hsteps hmore => exact ⟨steps, hsteps, more, hmore, rfl⟩

/-- A text is a path when it is not blank and its parts are in the grammar. -/
theorem parse_eq_ok_iff {raw : String} {p : Path} :
    parse raw = .ok p ↔ allBlank raw = false ∧ Parts (splitDots raw.toList) p := by
  rw [parse, ← readParts_eq_ok_iff]
  cases allBlank raw <;> simp

end Reading

end CatalogAssembly.Path
