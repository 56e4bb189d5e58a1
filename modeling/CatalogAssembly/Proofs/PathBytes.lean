import CatalogAssembly.Proofs.PathGrammar
import CatalogAssembly.Schema.Registry

/-!
# Path texts by byte positions

A text may also be read by searching it for brackets and cutting it at the byte positions
that were found. A cut can miss: a position may lie inside a character or behind the end
of the text, and a range may end before it starts. `parseByBytes` reads a path in this
way and has no result when a cut misses or when the rounds of its loop run out. Neither
ever happens, and it gives what `parse` gives: `parseByBytes_eq`. What is read is exactly
the grammar, and a text outside it is refused with the text in the error: `readPath_grammar`.
-/
namespace CatalogAssembly

namespace Text

def byteLength : List Char → Nat
  | [] => 0
  | c :: cs => c.utf8Size + byteLength cs

/-- What stands before a byte position and what from it on, if no character is cut. -/
def splitAtByte? : Nat → List Char → Option (List Char × List Char)
  | 0, cs => some ([], cs)
  | _ + 1, [] => none
  | n + 1, c :: cs =>
    if c.utf8Size ≤ n + 1 then (splitAtByte? (n + 1 - c.utf8Size) cs).map fun s => (c :: s.1, s.2)
    else none

/-- The characters between two byte positions. -/
def byteRange? (first last : Nat) (cs : List Char) : Option (List Char) :=
  (splitAtByte? last cs).bind fun s => (splitAtByte? first s.1).map (·.2)

/-- The byte position of the first such character. -/
def bytePosition? (x : Char) : List Char → Option Nat
  | [] => none
  | c :: cs => if c = x then some 0 else (bytePosition? x cs).map (c.utf8Size + ·)

theorem byteLength_append (xs ys : List Char) :
    byteLength (xs ++ ys) = byteLength xs + byteLength ys := by
  induction xs with
  | nil => simp [byteLength]
  | cons x xs ih => simp [byteLength, ih, Nat.add_assoc]

theorem bytePosition?_eq_none {x : Char} {cs : List Char} (h : x ∉ cs) :
    bytePosition? x cs = none := by
  induction cs with
  | nil => rfl
  | cons c cs ih =>
    rw [List.mem_cons, not_or] at h
    rw [bytePosition?, if_neg (Ne.symm h.1), ih h.2, Option.map_none]

theorem bytePosition?_append {x : Char} {before : List Char} (h : x ∉ before)
    (after : List Char) : bytePosition? x (before ++ x :: after) = some (byteLength before) := by
  induction before with
  | nil => simp [bytePosition?, byteLength]
  | cons c before ih =>
    rw [List.mem_cons, not_or] at h
    rw [List.cons_append, bytePosition?, if_neg (Ne.symm h.1), ih h.2]
    simp [byteLength]

/-- A position that a search may give is no cut through a character. -/
theorem splitAtByte?_append (before after : List Char) :
    splitAtByte? (byteLength before) (before ++ after) = some (before, after) := by
  induction before with
  | nil => rw [byteLength, splitAtByte?, List.nil_append]
  | cons c before ih =>
    have hpos : 0 < c.utf8Size := c.utf8Size_pos
    have hlength : byteLength (c :: before) = (c.utf8Size - 1 + byteLength before) + 1 := by
      simp only [byteLength]
      omega
    have hrest : c.utf8Size - 1 + byteLength before + 1 - c.utf8Size = byteLength before := by
      omega
    rw [hlength, List.cons_append, splitAtByte?, if_pos (by omega), hrest, ih, Option.map_some]

theorem byteRange?_append (before range after : List Char) :
    byteRange? (byteLength before) (byteLength (before ++ range)) (before ++ range ++ after)
      = some range := by
  rw [byteRange?, splitAtByte?_append, Option.bind_some, splitAtByte?_append, Option.map_some]

end Text

namespace Path

open Text

/-- The groups of a part: in each round a bracket is closed and cut off. -/
def groupsByBytes (part : List Char) : Nat → List Char → Option (Except PathFault Path)
  | _, [] => some (.ok [])
  | 0, _ :: _ => none
  | rounds + 1, c :: cs =>
    match bytePosition? ']' (c :: cs) with
    | none => some (.error (.unbalancedBracket (String.ofList part)))
    | some close =>
      if c ≠ '[' then some (.error (.unbalancedBracket (String.ofList part)))
      else do
        let digits ← byteRange? 1 close (c :: cs)
        match readBracketed digits with
        | .error fault => some (.error fault)
        | .ok step =>
          let rest ← splitAtByte? (close + 1) (c :: cs)
          let steps ← groupsByBytes part rounds rest.2
          some (steps.map (step :: ·))

/-- The name of a part is cut off where the first bracket opens. -/
def nameByBytes (part : List Char) : Option (List Char × List Char) :=
  match bytePosition? '[' part with
  | some position => splitAtByte? position part
  | none => some (part, [])

def partByBytes (part : List Char) : Option (Except PathFault Path) :=
  if part.isEmpty then some (.error .emptySegment)
  else if part.all Char.isDigit then some ((readIndex part).map ([·]))
  else do
    let (name, groups) ← nameByBytes part
    if name.contains ']' then some (.error (.unbalancedBracket (String.ofList part)))
    else
      let steps ← groupsByBytes part groups.length groups
      some (steps.map (keySteps name ++ ·))

def partsByBytes : List (List Char) → Option (Except PathFault Path)
  | [] => some (.ok [])
  | part :: parts => do
    match ← partByBytes part with
    | .error fault => some (.error fault)
    | .ok steps =>
      let more ← partsByBytes parts
      some (more.map (steps ++ ·))

def parseByBytes (raw : String) : Option (Except PathFault Path) :=
  if allBlank raw then some (.error .blank) else partsByBytes (splitDots raw.toList)

section Bytes

variable {part : List Char}

/-- A bracket that is never closed. -/
theorem readGroups_of_not_mem {inside cs : List Char} (h : ']' ∉ cs) :
    readGroups part (some inside) cs = .error (.unbalancedBracket (String.ofList part)) := by
  induction cs generalizing inside with
  | nil => rfl
  | cons c cs ih =>
    rw [List.mem_cons, not_or] at h
    rw [readGroups, if_neg (Ne.symm h.1), ih h.2]

/-- What stands in a bracket up to its end is read as one index. -/
theorem readGroups_append {inside digits : List Char} (h : ']' ∉ digits) (rest : List Char) :
    readGroups part (some inside) (digits ++ ']' :: rest)
      = (readBracketed (inside.reverse ++ digits)).bind fun step =>
          (readGroups part none rest).map (step :: ·) := by
  induction digits generalizing inside with
  | nil =>
    rw [List.nil_append, readGroups, if_pos rfl, List.append_nil]
    rfl
  | cons c digits ih =>
    rw [List.mem_cons, not_or] at h
    rw [List.cons_append, readGroups, if_neg (Ne.symm h.1), ih h.2, List.reverse_cons,
      List.append_assoc, List.singleton_append]

/-- A round cuts off one group. -/
theorem groupsByBytes_group {digits : List Char} (h : ']' ∉ digits) (rest : List Char)
    (rounds : Nat) :
    groupsByBytes part (rounds + 1) ('[' :: (digits ++ ']' :: rest))
      = match readBracketed digits with
        | .error fault => some (.error fault)
        | .ok step => (groupsByBytes part rounds rest).map fun steps => steps.map (step :: ·) := by
  have hopen : ']' ∉ '[' :: digits := by simp [h]
  have hposition : bytePosition? ']' ('[' :: (digits ++ ']' :: rest))
      = some (byteLength ('[' :: digits)) := bytePosition?_append hopen rest
  have hrange : byteRange? 1 (byteLength ('[' :: digits)) ('[' :: (digits ++ ']' :: rest))
      = some digits := byteRange?_append ['['] digits (']' :: rest)
  have hsplit : splitAtByte? (byteLength ('[' :: digits) + 1) ('[' :: (digits ++ ']' :: rest))
      = some ('[' :: digits ++ [']'], rest) := by
    have hcut := splitAtByte?_append ('[' :: digits ++ [']']) rest
    have hlast : byteLength [']'] = 1 := rfl
    rw [byteLength_append, hlast] at hcut
    simpa using hcut
  simp only [groupsByBytes, hposition, hrange, hsplit, ne_eq, not_true_eq_false, if_false,
    Option.bind_eq_bind, Option.bind_some]
  cases readBracketed digits with
  | error fault => rfl
  | ok step => cases groupsByBytes part rounds rest <;> rfl

/-- The loop ends within as many rounds as there are characters, and no cut in it misses. -/
theorem groupsByBytes_eq {rounds : Nat} {cs : List Char} (h : cs.length ≤ rounds) :
    groupsByBytes part rounds cs = some (readGroups part none cs) := by
  induction rounds generalizing cs with
  | zero =>
    obtain rfl : cs = [] := List.eq_nil_of_length_eq_zero (Nat.le_zero.mp h)
    rfl
  | succ rounds ih =>
    cases cs with
    | nil => rfl
    | cons c cs =>
      by_cases hc : c = '['
      · subst hc
        rw [readGroups, if_pos rfl]
        by_cases hclose : ']' ∈ cs
        · obtain ⟨digits, rest, rfl, hdigits⟩ := List.eq_append_cons_of_mem hclose
          have hlength : rest.length ≤ rounds := by
            simp only [List.length_cons, List.length_append] at h
            omega
          rw [groupsByBytes_group hdigits, readGroups_append hdigits, ih hlength, List.reverse_nil,
            List.nil_append]
          cases readBracketed digits <;> rfl
        · have hposition : bytePosition? ']' ('[' :: cs) = none :=
            bytePosition?_eq_none (by simp [hclose])
          rw [groupsByBytes, hposition, readGroups_of_not_mem hclose]
      · rw [groupsByBytes, readGroups, if_neg hc]
        cases bytePosition? ']' (c :: cs) with
        | none => rfl
        | some close => exact if_pos hc

theorem nameByBytes_eq (part : List Char) :
    nameByBytes part = some (part.takeWhile (· ≠ '['), part.dropWhile (· ≠ '[')) := by
  by_cases hopen : '[' ∈ part
  · obtain ⟨name, rest, rfl, hname⟩ := List.eq_append_cons_of_mem hopen
    have hkept : ∀ c ∈ name, decide (c ≠ '[') = true :=
      fun c hc => decide_eq_true fun heq => hname (heq ▸ hc)
    simp only [nameByBytes, bytePosition?_append hname, splitAtByte?_append]
    rw [List.takeWhile_append_of_pos hkept, List.dropWhile_append_of_pos hkept]
    simp
  · have hkept : ∀ c ∈ part, decide (c ≠ '[') = true :=
      fun c hc => decide_eq_true fun heq => hopen (heq ▸ hc)
    have htake : (part ++ []).takeWhile (· ≠ '[') = part ++ [] :=
      List.takeWhile_append_of_pos hkept
    have hdrop : (part ++ []).dropWhile (· ≠ '[') = [] := List.dropWhile_append_of_pos hkept
    rw [List.append_nil] at htake hdrop
    rw [nameByBytes, bytePosition?_eq_none hopen, htake, hdrop]

theorem partByBytes_eq (part : List Char) : partByBytes part = some (readPart part) := by
  unfold partByBytes readPart
  split
  · rfl
  · split
    · cases readIndex part <;> rfl
    · simp only [nameByBytes_eq, Option.bind_eq_bind, Option.bind_some,
        groupsByBytes_eq (Nat.le_refl _)]
      split
      · rfl
      · cases readGroups part none (part.dropWhile (· ≠ '[')) with
        | error fault => rfl
        | ok steps => simp [keySteps_append, Except.map, bind, Except.bind]

theorem partsByBytes_eq (parts : List (List Char)) :
    partsByBytes parts = some (readParts parts) := by
  induction parts with
  | nil => rfl
  | cons part parts ih =>
    rw [partsByBytes, readParts, partByBytes_eq, ih]
    cases readPart part with
    | error fault => rfl
    | ok steps => cases readParts parts <;> rfl

/-- Reading by byte positions always comes to a result, and to the same one. -/
theorem parseByBytes_eq (raw : String) : parseByBytes raw = some (parse raw) := by
  unfold parseByBytes parse
  split
  · rfl
  · exact partsByBytes_eq _

end Bytes

/-- A part that is read: the digits of an index, or a name without brackets with numerals in
brackets behind it. A part of digits only is an index or nothing. -/
def WellFormed (part : List Char) : Prop :=
  part ≠ [] ∧
    ((part.all Char.isDigit = true ∧ natOfDigits part < indexLimit) ∨
      (part.all Char.isDigit = false ∧ ∃ name groups : List Char, part = name ++ groups ∧
        (∀ c ∈ name, c ≠ '[' ∧ c ≠ ']') ∧ ∃ indices, Groups groups indices))

theorem wellFormed_iff {part : List Char} : WellFormed part ↔ ∃ steps, Part part steps := by
  constructor
  · rintro ⟨hne, ⟨hdigits, hlimit⟩ | ⟨hother, name, groups, rfl, hname, indices, hgroups⟩⟩
    · exact ⟨_, .numeral ⟨hne, hdigits, rfl, hlimit⟩⟩
    · exact ⟨_, .named hname hgroups hother⟩
  · rintro ⟨steps, h⟩
    cases h with
    | numeral hn => exact ⟨hn.nonempty, .inl ⟨hn.digits, hn.value ▸ hn.limit⟩⟩
    | @named name groups indices hname hgroups hother =>
      refine ⟨?_, .inr ⟨hother, name, groups, rfl, hname, indices, hgroups⟩⟩
      intro hnil
      rw [hnil] at hother
      cases hother

theorem exists_parts_iff {parts : List (List Char)} :
    (∃ p, Parts parts p) ↔ ∀ part ∈ parts, WellFormed part := by
  induction parts with
  | nil => exact ⟨fun _ _ hmem => absurd hmem List.not_mem_nil, fun _ => ⟨[], .nil⟩⟩
  | cons part parts ih =>
    rw [List.forall_mem_cons, ← ih, wellFormed_iff]
    constructor
    · rintro ⟨p, h⟩
      cases h with
      | cons hpart hrest => exact ⟨⟨_, hpart⟩, ⟨_, hrest⟩⟩
    · rintro ⟨⟨steps, hpart⟩, ⟨more, hrest⟩⟩
      exact ⟨_, .cons hpart hrest⟩

theorem allBlank_eq_false_iff {raw : String} :
    allBlank raw = false ↔ ∃ c ∈ raw.toList, isBlank c = false := by
  rw [allBlank, List.all_eq_false]
  simp only [Bool.not_eq_true]

end Path

open Text CatalogAssembly.Path

/-- A text is read when it is not blank and all its parts are in the grammar, as the steps of its
parts in order; any other text is refused and named in the error. No cut of the text misses. -/
theorem readPath_grammar (raw : String) :
    (∀ p, readPath raw = .ok p ↔
      (∃ c ∈ raw.toList, isBlank c = false) ∧ Parts (raw.toList.splitOn '.') p) ∧
    ((∃ p, readPath raw = .ok p) ↔
      (∃ c ∈ raw.toList, isBlank c = false) ∧ ∀ part ∈ raw.toList.splitOn '.', WellFormed part) ∧
    ((∃ fault, readPath raw = .error (.invalidPath raw fault)) ↔ ¬ ∃ p, readPath raw = .ok p) ∧
    parseByBytes raw = some (parse raw) := by
  have hread : ∀ p, readPath raw = .ok p ↔
      (∃ c ∈ raw.toList, isBlank c = false) ∧ Parts (raw.toList.splitOn '.') p := by
    intro p
    rw [readPath_eq_ok_iff, parse_eq_ok_iff, allBlank_eq_false_iff, splitDots_eq_splitOn]
  refine ⟨hread, ?_, ?_, parseByBytes_eq raw⟩
  · simp only [hread, exists_and_left, exists_parts_iff]
  · cases hresult : parse raw with
    | ok p =>
      have hok : readPath raw = .ok p := readPath_eq_ok_iff.mpr hresult
      simp [hok]
    | error fault =>
      have herror : readPath raw = .error (.invalidPath raw fault) :=
        readPath_eq_error_iff.mpr ⟨fault, hresult, rfl⟩
      simp [herror]

/-- A letter of two bytes on either side of the brackets. -/
example : parseByBytes "é[0]é" = some (.error (.unbalancedBracket "é[0]é")) := rfl

end CatalogAssembly
