import CatalogAssembly.Proofs.Lens
import CatalogAssembly.Proofs.PathGrammar

/-!
# The two spellings of an index

An index is added to a path text behind a dot or in brackets. Behind a dot it is a part of
its own, and the path goes on with it whatever the text was. Brackets belong to the last part,
and a part of digits only, which is an index when it stands alone, is read as a name as soon
as brackets follow it. So the two spellings are one path unless the text ends in such a
part. Where it does, the bracketed text is a path that leads past the elements of an array.
-/
namespace CatalogAssembly.Path

open Json (Value)
open Text (allBlank)

/-- What stands behind the last dot of a text. -/
def lastPart (cs : List Char) : List Char := (splitDots cs).getLastD []

/-- Two paths are read and set alike in every document. -/
def SamePlace (p q : Path) : Prop :=
  ∀ doc, p.get? doc = q.get? doc ∧ ∀ w, p.set? doc w = q.set? doc w

section Ending

theorem exists_last_dot (cs : List Char) :
    '.' ∉ cs ∨ ∃ front last, cs = front ++ '.' :: last ∧ '.' ∉ last := by
  induction cs with
  | nil => exact .inl List.not_mem_nil
  | cons c cs ih =>
    obtain h | ⟨front, last, rfl, hlast⟩ := ih
    · by_cases hc : c = '.'
      · exact .inr ⟨[], cs, by rw [hc, List.nil_append], h⟩
      · exact .inl (List.not_mem_cons_of_ne_of_not_mem (Ne.symm hc) h)
    · exact .inr ⟨c :: front, last, rfl, hlast⟩

/-- What is added to a text without a dot is added to its last part. -/
theorem exists_splitDots_append (cs : List Char) :
    ∃ init, ∀ ending, '.' ∉ ending →
      splitDots (cs ++ ending) = init ++ [lastPart cs ++ ending] := by
  simp only [lastPart, splitDots_eq_splitOn]
  obtain h | ⟨front, last, rfl, h⟩ := exists_last_dot cs
  · refine ⟨[], fun ending hending => ?_⟩
    have happend : '.' ∉ cs ++ ending := by simp [h, hending]
    rw [List.splitOn_eq_singleton happend, List.splitOn_eq_singleton h]
    rfl
  · refine ⟨front.splitOn '.', fun ending hending => ?_⟩
    have happend : '.' ∉ last ++ ending := by simp [h, hending]
    rw [List.append_assoc, List.cons_append, List.splitOn_append_cons_self,
      List.splitOn_append_cons_self, List.splitOn_eq_singleton happend,
      List.splitOn_eq_singleton h, List.getLastD_concat]

theorem parts_append_iff {xs ys : List (List Char)} {p : Path} :
    Parts (xs ++ ys) p ↔ ∃ q r, Parts xs q ∧ Parts ys r ∧ p = q ++ r := by
  induction xs generalizing p with
  | nil =>
    constructor
    · exact fun h => ⟨[], p, .nil, h, rfl⟩
    · rintro ⟨q, r, hq, hr, rfl⟩
      cases hq
      exact hr
  | cons part xs ih =>
    constructor
    · intro h
      cases h with
      | @cons _ _ steps more hpart hrest =>
        obtain ⟨q, r, hq, hr, rfl⟩ := ih.mp hrest
        exact ⟨steps ++ q, r, .cons hpart hq, hr, by rw [List.append_assoc]⟩
    · rintro ⟨q, r, hq, hr, rfl⟩
      cases hq with
      | @cons _ _ steps more hpart hrest =>
        rw [List.append_assoc]
        exact .cons hpart (ih.mpr ⟨more, r, hrest, hr, rfl⟩)

theorem parts_singleton_iff {part : List Char} {p : Path} : Parts [part] p ↔ Part part p := by
  constructor
  · intro h
    cases h with
    | @cons _ _ steps more hpart hrest =>
      cases hrest
      rwa [List.append_nil]
  · intro h
    have hparts := Parts.cons h .nil
    rwa [List.append_nil] at hparts

theorem allBlank_append {raw : String} (h : allBlank raw = false) (ending : String) :
    allBlank (raw ++ ending) = false := by
  rw [allBlank] at h
  rw [allBlank, String.toList_append, List.all_append, h, Bool.false_and]

end Ending

section Reading

variable {part digits : List Char} {m n : Nat} {steps : Path}

/-- A numeral in brackets. -/
def bracketed (digits : List Char) : List Char := '[' :: (digits ++ [']'])

theorem Numeral.groups (h : Numeral digits n) : Groups (bracketed digits) [.index n] := .cons h .nil

theorem Numeral.not_mem_bracketed (h : Numeral digits n) : '.' ∉ bracketed digits := by
  simp [bracketed, h.not_mem]

/-- Brackets lengthen a part that is no numeral by an index. -/
theorem Part.bracketed (h : Part part steps) (hother : part.all Char.isDigit = false)
    (hn : Numeral digits n) : Part (part ++ Path.bracketed digits) (steps ++ [.index n]) := by
  cases h with
  | numeral hm =>
    rw [hm.digits] at hother
    cases hother
  | @named name groups steps hname hgroups _ =>
    rw [List.append_assoc, List.append_assoc]
    refine .named hname (hgroups.append hn.groups) ?_
    rw [← List.append_assoc, List.all_append, hother, Bool.false_and]

/-- A numeral becomes a name when brackets follow it. -/
theorem Numeral.part_bracketed (h : Numeral part m) (hn : Numeral digits n) :
    Part (part ++ Path.bracketed digits) [.key (String.ofList part), .index n] := by
  have hname : ∀ c ∈ part, c ≠ '[' ∧ c ≠ ']' := by
    refine fun c hc => ⟨?_, ?_⟩
    · rintro rfl
      exact h.not_mem rfl hc
    · rintro rfl
      exact h.not_mem rfl hc
  have hother : (part ++ Path.bracketed digits).all Char.isDigit = false := by
    rw [List.all_append, Bool.and_eq_false_iff]
    exact .inr rfl
  have hpart := Part.named hname hn.groups hother
  rwa [keySteps, List.isEmpty_eq_false_iff.mpr h.nonempty] at hpart

end Reading

section Documents

/-- A document that holds a value at a path and nothing else of interest. -/
def nest : Path → Value → Value
  | [], v => v
  | .key name :: p, v => .object [(name, nest p v)]
  | .index n :: p, v => .array (List.replicate n .null ++ [nest p v])

theorem get?_nest (p : Path) (v : Value) : p.get? (nest p v) = some v := by
  induction p with
  | nil => rfl
  | cons s p ih =>
    cases s with
    | key name => simp [get?, nest, Value.child?, Step.name, ih]
    | index n => simp [get?, nest, Value.child?, ih]

/-- A name leads nowhere in an array. -/
theorem get?_key_of_array {q : Path} {doc : Value} {items : List Value}
    (h : q.get? doc = some (.array items)) (name : String) (r : Path) :
    (q.join (.key name :: r)).get? doc = none := by
  rw [get?_join, h, Option.bind_some, get?_cons]
  rfl

/-- Behind a path to an array an index leads to an element and a name nowhere. -/
theorem not_samePlace (q : Path) (m n : Nat) (name : String) :
    ¬ SamePlace ((q.atIndex m).atIndex n) (q.join [.key name, .index n]) := by
  intro hsame
  let matrix := nest [.index m, .index n] .null
  have hmatrix : q.get? (nest q matrix) = some matrix := get?_nest q matrix
  have hread : ((q.atIndex m).atIndex n).get? (nest q matrix) = some .null := by
    have hjoin : (q.atIndex m).atIndex n = q.join [.index m, .index n] :=
      List.append_assoc q [.index m] [.index n]
    rw [hjoin, get?_join, hmatrix, Option.bind_some]
    exact get?_nest [.index m, .index n] .null
  have hnone := get?_key_of_array hmatrix name [.index n]
  rw [← (hsame _).1, hread] at hnone
  cases hnone

end Documents

section Spellings

variable {raw digits : String} {p : Path} {n : Nat}

/-- Behind a dot an index is added to every path. -/
theorem parse_dotted (h : parse raw = .ok p) (hn : Numeral digits.toList n) :
    parse (raw ++ "." ++ digits) = .ok (p.atIndex n) := by
  obtain ⟨hblank, hparts⟩ := parse_eq_ok_iff.mp h
  have htext : (raw ++ "." ++ digits).toList = raw.toList ++ '.' :: digits.toList := by simp
  refine parse_eq_ok_iff.mpr ⟨allBlank_append (allBlank_append hblank ".") digits, ?_⟩
  rw [htext, splitDots_eq_splitOn, List.splitOn_append_cons_self,
    List.splitOn_eq_singleton (hn.not_mem rfl), ← splitDots_eq_splitOn]
  exact parts_append_iff.mpr ⟨p, [.index n], hparts, parts_singleton_iff.mpr (.numeral hn), rfl⟩

/-- In brackets an index is added to the last part. -/
theorem exists_parse_bracketed (h : parse raw = .ok p) (hn : Numeral digits.toList n) :
    ∃ q steps, p = q ++ steps ∧ Part (lastPart raw.toList) steps ∧
      ∀ more, Part (lastPart raw.toList ++ bracketed digits.toList) more →
        parse (raw ++ "[" ++ digits ++ "]") = .ok (q ++ more) := by
  obtain ⟨hblank, hparts⟩ := parse_eq_ok_iff.mp h
  obtain ⟨init, hinit⟩ := exists_splitDots_append raw.toList
  have hlast := hinit [] List.not_mem_nil
  rw [List.append_nil, List.append_nil] at hlast
  rw [hlast, parts_append_iff] at hparts
  obtain ⟨q, steps, hq, hsteps, rfl⟩ := hparts
  refine ⟨q, steps, rfl, parts_singleton_iff.mp hsteps, fun more hmore => ?_⟩
  have htext : (raw ++ "[" ++ digits ++ "]").toList = raw.toList ++ bracketed digits.toList := by
    simp [bracketed]
  refine parse_eq_ok_iff.mpr
    ⟨allBlank_append (allBlank_append (allBlank_append hblank "[") digits) "]", ?_⟩
  rw [htext, hinit _ hn.not_mem_bracketed]
  exact parts_append_iff.mpr ⟨q, more, hq, parts_singleton_iff.mpr hmore, rfl⟩

/-- What the two spellings of an index come to behind the text of a path. -/
structure Spellings (raw digits : String) (p : Path) (n : Nat) : Prop where
  dotted : parse (raw ++ "." ++ digits) = .ok (p.atIndex n)
  bracketed (hother : (lastPart raw.toList).all Char.isDigit = false) :
    parse (raw ++ "[" ++ digits ++ "]") = .ok (p.atIndex n)
  /-- A numeral at the end of the text becomes a name, which is nowhere in an array. -/
  renamed (hall : (lastPart raw.toList).all Char.isDigit = true) :
    ∃ (q b : Path) (m : Nat), p = q.atIndex m ∧
      b = q.join [.key (String.ofList (lastPart raw.toList)), .index n] ∧
      parse (raw ++ "[" ++ digits ++ "]") = .ok b ∧
      ∀ doc items, q.get? doc = some (.array items) →
        b.get? doc = none ∧ ∀ w, b.set? doc w = none
  /-- Nothing but such a numeral tells the two places apart. -/
  same (b : Path) (hb : parse (raw ++ "[" ++ digits ++ "]") = .ok b) :
    SamePlace (p.atIndex n) b ↔ (lastPart raw.toList).all Char.isDigit = false

/-- An index behind a dot and one in brackets are one place exactly behind the texts that do not
end in a numeral. -/
theorem spellings (h : parse raw = .ok p) (hn : Numeral digits.toList n) :
    Spellings raw digits p n := by
  obtain ⟨q, steps, rfl, hlast, hbracketed⟩ := exists_parse_bracketed h hn
  have hplain (hother : (lastPart raw.toList).all Char.isDigit = false) :
      parse (raw ++ "[" ++ digits ++ "]") = .ok (atIndex (q ++ steps) n) := by
    rw [hbracketed _ (hlast.bracketed hother hn), atIndex, List.append_assoc]
  have hnumeral (hall : (lastPart raw.toList).all Char.isDigit = true) :
      ∃ m, steps = [.index m] ∧ parse (raw ++ "[" ++ digits ++ "]")
        = .ok (q.join [.key (String.ofList (lastPart raw.toList)), .index n]) := by
    obtain ⟨m, hm, rfl⟩ := (readPart_numeral_iff hall).mp (readPart_eq_ok_iff.mpr hlast)
    exact ⟨m, rfl, hbracketed _ (hm.part_bracketed hn)⟩
  refine ⟨parse_dotted h hn, hplain, fun hall => ?_, fun b hb => ?_⟩
  · obtain ⟨m, rfl, hparse⟩ := hnumeral hall
    refine ⟨q, _, m, rfl, rfl, hparse, fun doc items hitems => ?_⟩
    have hnone := get?_key_of_array hitems (String.ofList (lastPart raw.toList)) [.index n]
    refine ⟨hnone, fun w => ?_⟩
    rw [← Option.not_isSome_iff_eq_none, isSome_set?, hnone]
    exact Bool.false_ne_true
  · cases hall : (lastPart raw.toList).all Char.isDigit with
    | false =>
      obtain rfl := Except.ok.inj ((hplain hall).symm.trans hb)
      exact ⟨fun _ => rfl, fun _ _ => ⟨rfl, fun _ => rfl⟩⟩
    | true =>
      obtain ⟨m, rfl, hparse⟩ := hnumeral hall
      obtain rfl := Except.ok.inj (hparse.symm.trans hb)
      exact ⟨fun hsame => absurd hsame (not_samePlace q m n _), nofun⟩

/-- Leading zeros, behind a part with brackets of its own. -/
theorem spellings_brackets :
    parse "discs[2]" = .ok [.key "discs", .index 2] ∧
      Spellings "discs[2]" "007" [.key "discs", .index 2] 7 :=
  ⟨rfl, spellings rfl ⟨List.cons_ne_nil _ _, rfl, rfl, by decide⟩⟩

/-- The second element of the first one is read behind a dot and missed in brackets. -/
theorem brackets_miss_numeral :
    parse "0" = .ok [.index 0] ∧ parse "0.1" = .ok [.index 0, .index 1] ∧
      parse "0[1]" = .ok [.key "0", .index 1] ∧
      get? [.index 0, .index 1] (.array [.array [.ofInt 7, .ofInt 8]]) = some (.ofInt 8) ∧
      get? [.key "0", .index 1] (.array [.array [.ofInt 7, .ofInt 8]]) = none :=
  ⟨rfl, rfl, rfl, rfl, rfl⟩

end Spellings

end CatalogAssembly.Path
