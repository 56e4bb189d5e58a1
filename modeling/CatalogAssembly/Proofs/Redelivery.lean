import CatalogAssembly.Proofs.Exchange
import CatalogAssembly.Proofs.Root

/-!
# Fragments delivered again

A fragment with a direct rule that comes twice in a row is taken as if it came once. The
second time it finds in its slot what it left there: nothing still, or a collection in
which the payload is recognised by its own identifier. So the same edit is made again,
`slotEdit_again`, and the run goes on from the same entity. The exception is a slot with
a bare identifier. It takes the payload once, and then holds a resolved object, which is
never replaced: `assemble_again`.
-/
namespace CatalogAssembly

open Json (Value)

/-- The slot holds a bare identifier, and it is that of the payload. -/
inductive BareFor (f : Fragment) : Option Value → Prop
  | intro {v id : Value} (scalar : v.isScalar = true) (payload : f.id? = some id)
      (same : sameId v id = true) : BareFor f (some v)

section Filling

variable {mode : Mode} {f : Fragment} {place : Path}

theorem fillElement_fillElement (element : Value) :
    fillElement f (fillElement f element) = fillElement f element := by
  by_cases hm : matchingIds element.slotId? f.id? = true
  · have hfill : fillElement f element = f.payload := if_pos hm
    rw [hfill, fillElement, ite_self]
  · have hfill : fillElement f element = element := if_neg hm
    rw [hfill, hfill]

/-- What waited for the payload is matched by the payload in its place, and nothing else is. -/
theorem matchingIds_fillElement (element : Value) :
    matchingIds (fillElement f element).slotId? f.id? = matchingIds element.slotId? f.id? := by
  by_cases hm : matchingIds element.slotId? f.id? = true
  · rw [fillElement, if_pos hm]
    exact Value.matchingIds_slotId? hm f.id?
  · rw [fillElement, if_neg hm]

/-- A collection that took a payload takes it again and is the same then. -/
theorem filled_items_again {items : List Value}
    (hc : ∀ e, ¬ Clash mode f place (.array items) e) :
    (∀ e, ¬ Clash mode f place (filled f (.array items)) e) ∧
      filled f (filled f (.array items)) = filled f (.array items) := by
  constructor
  · apply not_clash_of_map_eq _ hc
    rw [List.map_map]
    exact List.map_congr_left fun element _ => (matchingIds_fillElement element).symm
  · simp only [filled, List.map_map, Function.comp_def, fillElement_fillElement]

end Filling

section Edits

variable {mode : Mode} {f : Fragment} {raw : Value} {place path : Path} {slot : Option Value}

/-- An edit that was made is made again, unless it put the payload in the place of a bare
identifier. -/
theorem slotEdit_again {edit : Edit} (h : slotEdit mode f raw place path slot = .ok edit)
    (hbare : ¬ BareFor f slot) : slotEdit mode f raw place path (edit.value slot) = .ok edit := by
  obtain ⟨-, rfl⟩ | ⟨current, hcurrent, hc, rfl⟩ := slotEdit_eq_ok.mp h
  · exact h
  · obtain ⟨rfl, hnull⟩ := Value.present?_eq_some.mp hcurrent
    by_cases harray : ∃ items, current = .array items
    · obtain ⟨items, rfl⟩ := harray
      obtain ⟨hc', hsame⟩ := filled_items_again hc
      exact slotEdit_eq_ok.mpr (.inr ⟨_, rfl, hc', congrArg Edit.replace hsame.symm⟩)
    · have scalar := isScalar_of_not_clash hnull (not_exists.mp harray) hc
      obtain ⟨v, id, hv, hid, same⟩ := matchingIds_iff.mp (matchingIds_of_not_clash scalar hc)
      obtain rfl := Option.some.inj hv
      exact absurd (.intro scalar hid same) hbare

/-- A bare identifier gives way to its payload, which then is refused. -/
theorem slotEdit_of_bare (hbare : BareFor f slot) :
    slotEdit mode f raw place path slot = .ok (.replace f.payload) ∧
      ∃ id, f.id? = some id ∧
        slotEdit mode f raw place path (some f.payload)
          = .error (.identityMismatch f.payload id) := by
  cases hbare with
  | @intro v id scalar hid same =>
    have hv : Value.present? (some v) = some v := by
      cases v with
      | null => cases scalar
      | _ => rfl
    have hc : ∀ e, ¬ Clash mode f place v e := by
      intro e he
      cases he with
      | unmatched => cases scalar
      | resolved => cases scalar
      | other _ hm =>
        rw [hid, matchingIds, same] at hm
        cases hm
    have hfilled : Edit.replace f.payload = .replace (filled f v) := by
      rw [filled_of_isScalar scalar]
    refine ⟨slotEdit_eq_ok.mpr (.inr ⟨v, hv, hc, hfilled⟩), id, hid, ?_⟩
    obtain ⟨fields, hpayload⟩ := Value.exists_fields_of_payloadId? hid
    have hclash : Clash mode f place f.payload (.identityMismatch f.payload id) := by
      have hresolved : Clash mode f place (.object fields) _ := .resolved fields
      rwa [hid, Option.getD_some, ← hpayload] at hresolved
    have hpresent : Value.present? (some f.payload) = some f.payload := by
      rw [hpayload]
      rfl
    rw [slotEdit, hpresent]
    simp only [substitute_of_clash hclash]

/-- A collection is edited without a word. -/
theorem warnings_of_slotEdit_array {items : List Value} {edit : Edit}
    (h : slotEdit mode f raw place path (some (.array items)) = .ok edit) : edit.warnings = [] := by
  obtain ⟨hnone, -⟩ | ⟨current, -, -, rfl⟩ := slotEdit_eq_ok.mp h
  · cases hnone
  · rfl

theorem Edit.apply_self (p : Path) (s : Option Value) (edit : Edit) :
    edit.apply p (edit.apply p s) = edit.apply p s := by
  cases edit with
  | keep w => rfl
  | replace v =>
    cases s with
    | none => rfl
    | some entity => exact congrArg some (Path.put_put p entity v v)

end Edits

section Runs

open Reported (warned)

variable {a : Assembler} (kind : EntityKind) {d : Descriptor} {raw : Value} {f : Fragment}
  {p : Path}

theorem run_singleton (n : Nat) (s : Option Value) :
    a.run kind d n s [raw] = a.step kind d n s raw := Noted.andThen_pure _

/-- The second delivery edits what the first one left. -/
theorem warned_run_pair (ha : a.adopter = .passThrough) (hf : Fragment.parse raw = .ok f)
    (hrule : d.rule? f.key = some (.direct p)) (n : Nat) (s : Option Value) :
    warned (a.run kind d n s [raw, raw])
      = (edited p s (slotEdit a.mode f raw p p (s.bind p.get?))).andThen fun t =>
          edited p t (slotEdit a.mode f raw p p (t.bind p.get?)) := by
  rw [run_pair, Reported.warned_andThen, warned_step_of_access ha kind d hf hrule rfl]
  exact congrArg _ (funext fun t => warned_step_of_access ha kind d hf hrule rfl (n + 1) t)

theorem warned_run_once (ha : a.adopter = .passThrough) (hf : Fragment.parse raw = .ok f)
    (hrule : d.rule? f.key = some (.direct p)) (n : Nat) (s : Option Value) :
    warned (a.run kind d n s [raw]) = edited p s (slotEdit a.mode f raw p p (s.bind p.get?)) := by
  rw [run_singleton, warned_step_of_access ha kind d hf hrule rfl]
  rfl

/-- Unless a bare identifier waits, the second delivery repeats the warnings of the first one and
leaves its entity. -/
theorem warned_run_again (ha : a.adopter = .passThrough) (hf : Fragment.parse raw = .ok f)
    (hrule : d.rule? f.key = some (.direct p)) (n : Nat) {s : Option Value}
    (hbare : ¬ BareFor f (s.bind p.get?)) :
    warned (a.run kind d n s [raw, raw])
      = (warned (a.run kind d n s [raw])).andThen fun t =>
          ⟨(a.run kind d n s [raw]).warnings, .ok t⟩ := by
  have honce := warned_run_once kind ha hf hrule n s
  have hwarnings : (a.run kind d n s [raw]).warnings = _ := congrArg Noted.notes honce
  rw [warned_run_pair kind ha hf hrule, honce, hwarnings]
  cases hedit : slotEdit a.mode f raw p p (s.bind p.get?) with
  | error e => rfl
  | ok edit =>
    have hread : (edit.apply p s).bind p.get? = edit.value (s.bind p.get?) :=
      @get?_apply_edit _ _ _ (.direct p) _ _ _ hedit
    simp only [edited, Noted.andThen, hread, slotEdit_again hedit hbare, Edit.apply_self]

theorem result_run_again (ha : a.adopter = .passThrough) (hf : Fragment.parse raw = .ok f)
    (hrule : d.rule? f.key = some (.direct p)) (n : Nat) {s : Option Value}
    (hbare : ¬ BareFor f (s.bind p.get?)) :
    (a.run kind d n s [raw, raw]).result = (a.run kind d n s [raw]).result := by
  have hwarned := congrArg Noted.result (warned_run_again kind ha hf hrule n hbare)
  change (a.run kind d n s [raw, raw]).result = _ at hwarned
  rw [hwarned]
  cases hs : (a.run kind d n s [raw]).result with
  | error e => rw [Noted.andThen_of_error (r := warned (a.run kind d n s [raw])) hs]
  | ok t => rw [Noted.andThen_of_ok (r := warned (a.run kind d n s [raw])) hs]

/-- A bare identifier is not there for the second delivery. -/
theorem result_run_again_of_bare (ha : a.adopter = .passThrough) (hf : Fragment.parse raw = .ok f)
    (hrule : d.rule? f.key = some (.direct p)) (n : Nat) {s : Option Value}
    (hbare : BareFor f (s.bind p.get?)) :
    ∃ id, f.id? = some id ∧
      (a.run kind d n s [raw, raw]).result = .error (.identityMismatch f.payload id) := by
  obtain ⟨hfirst, id, hid, hsecond⟩ := @slotEdit_of_bare a.mode f raw p p _ hbare
  have hread : ((Edit.replace f.payload).apply p s).bind p.get? = some f.payload :=
    @get?_apply_edit _ _ _ (.direct p) _ _ _ hfirst
  have hpair := congrArg Noted.result (warned_run_pair kind ha hf hrule n s)
  change (a.run kind d n s [raw, raw]).result = _ at hpair
  refine ⟨id, hid, ?_⟩
  rw [hpair, hfirst]
  simp only [edited, Noted.andThen, hread, hsecond, Noted.fail]

/-- A collection takes the payload in silence, once or twice. -/
theorem warned_run_again_of_array (ha : a.adopter = .passThrough) (hf : Fragment.parse raw = .ok f)
    (hrule : d.rule? f.key = some (.direct p)) (n : Nat) {s : Option Value} {items : List Value}
    (hs : s.bind p.get? = some (.array items)) :
    warned (a.run kind d n s [raw, raw]) = warned (a.run kind d n s [raw]) := by
  have hbare : ¬ BareFor f (s.bind p.get?) := by
    rw [hs]
    rintro ⟨scalar, -⟩
    cases scalar
  rw [warned_run_again kind ha hf hrule n hbare]
  have honce := warned_run_once kind ha hf hrule n s
  have hwarnings : (a.run kind d n s [raw]).warnings = _ := congrArg Noted.notes honce
  rw [honce, hwarnings]
  cases hedit : slotEdit a.mode f raw p p (s.bind p.get?) with
  | error e => rfl
  | ok edit =>
    rw [hs] at hedit
    simp only [edited, Noted.andThen, warnings_of_slotEdit_array hedit, List.append_nil]

end Runs

section Assemblies

open Reported (warned)

variable {a : Assembler} {kind : EntityKind} {d : Descriptor} {xs zs zs' : List Value}

theorem result_complete_position (m n : Nat) (t : Option Value) (ys : List Value) :
    (a.complete kind d m t ys).result = (a.complete kind d n t ys).result := by
  have hwarned := congrArg Noted.result (@Assembler.warned_complete_position a kind d m n t ys)
  exact hwarned

/-- What is the same in the middle of an assembly for the result is the same for the whole. -/
theorem result_assemble_congr (hd : a.registry.descriptor? kind = some d) (hne : zs ≠ [])
    (hne' : zs' ≠ []) (h : ∀ s, (a.run kind d 0 none xs).result = .ok s →
      (a.run kind d xs.length s zs).result = (a.run kind d xs.length s zs').result)
    (ys : List Value) :
    (a.assemble kind (xs ++ zs ++ ys)).result = (a.assemble kind (xs ++ zs' ++ ys)).result := by
  rw [a.assemble_split hd xs hne, a.assemble_split hd xs hne']
  cases hs : (a.run kind d 0 none xs).result with
  | error e => rw [Noted.andThen_of_error hs, Noted.andThen_of_error hs]
  | ok s =>
    have hzs := h s hs
    rw [Noted.andThen_of_ok hs, Noted.andThen_of_ok hs]
    cases ht : (a.run kind d xs.length s zs).result with
    | error e => rw [Noted.andThen_of_error ht, Noted.andThen_of_error (hzs.symm.trans ht)]
    | ok t =>
      rw [Noted.andThen_of_ok ht, Noted.andThen_of_ok (hzs.symm.trans ht)]
      exact result_complete_position _ _ t ys

/-- What fails in the middle of an assembly is how it fails. -/
theorem result_assemble_of_error (hd : a.registry.descriptor? kind = some d) (hne : zs ≠ [])
    {s : Option Value} (hs : (a.run kind d 0 none xs).result = .ok s) {e : AssemblyError}
    (h : (a.run kind d xs.length s zs).result = .error e) (ys : List Value) :
    (a.assemble kind (xs ++ zs ++ ys)).result = .error e := by
  rw [a.assemble_split hd xs hne, Noted.andThen_of_ok hs, Noted.andThen_of_error h]

/-- The same with the warnings. -/
theorem warned_assemble_congr (hd : a.registry.descriptor? kind = some d) (hne : zs ≠ [])
    (hne' : zs' ≠ []) {s : Option Value} (hs : (a.run kind d 0 none xs).result = .ok s)
    (h : warned (a.run kind d xs.length s zs) = warned (a.run kind d xs.length s zs'))
    (ys : List Value) :
    warned (a.assemble kind (xs ++ zs ++ ys)) = warned (a.assemble kind (xs ++ zs' ++ ys)) := by
  have hmiddle : warned ((a.run kind d xs.length s zs).andThen fun t =>
        a.complete kind d (xs.length + zs.length) t ys)
      = warned ((a.run kind d xs.length s zs').andThen fun t =>
        a.complete kind d (xs.length + zs'.length) t ys) := by
    rw [Reported.warned_andThen, Reported.warned_andThen, h]
    exact congrArg _ (funext fun t => Assembler.warned_complete_position _ _ t ys)
  have hs' : (warned (a.run kind d 0 none xs)).result = .ok s := hs
  rw [a.assemble_split hd xs hne, a.assemble_split hd xs hne', Reported.warned_andThen,
    Reported.warned_andThen, Noted.andThen_of_ok hs', Noted.andThen_of_ok hs', hmiddle]

/-- A fragment with a direct rule delivered twice in a row is as good as delivered once, with the
same warnings where its slot holds a collection. Only a bare identifier takes the payload and then
refuses it. -/
theorem assemble_again (ha : a.adopter = .passThrough)
    (hd : a.registry.descriptor? kind = some d) {raw : Value} {f : Fragment} {p : Path}
    (hf : Fragment.parse raw = .ok f) (hrule : d.rule? f.key = some (.direct p))
    (xs ys : List Value) :
    let once := a.assemble kind (xs ++ [raw] ++ ys)
    let twice := a.assemble kind (xs ++ [raw, raw] ++ ys)
    ((∀ s, (a.run kind d 0 none xs).result = .ok s → ¬ BareFor f (s.bind p.get?)) →
      twice.result = once.result) ∧
    (∀ s, (a.run kind d 0 none xs).result = .ok s → BareFor f (s.bind p.get?) →
      ∃ id, f.id? = some id ∧ twice.result = .error (.identityMismatch f.payload id)) ∧
    ∀ s items, (a.run kind d 0 none xs).result = .ok s → s.bind p.get? = some (.array items) →
      twice.warned = once.warned := by
  intro once twice
  have hpair : [raw, raw] ≠ [] := List.cons_ne_nil raw [raw]
  have hsingle : [raw] ≠ [] := List.cons_ne_nil raw []
  refine ⟨?_, ?_, ?_⟩
  · intro hbare
    refine result_assemble_congr hd hpair hsingle (fun s hs => ?_) ys
    exact result_run_again kind ha hf hrule xs.length (hbare s hs)
  · intro s hs hbare
    obtain ⟨id, hid, hrun⟩ := result_run_again_of_bare kind ha hf hrule xs.length hbare
    exact ⟨id, hid, result_assemble_of_error hd hpair hs hrun ys⟩
  · intro s items hs hitems
    have hrun := warned_run_again_of_array kind ha hf hrule xs.length hitems
    exact warned_assemble_congr hd hpair hsingle hs hrun ys

end Assemblies

/-- An artist may come twice, also one that nothing waits for, and a detail may not. -/
theorem assemble_again_artist_detail :
    let a : Assembler := ⟨.builtin, .strict, .passThrough⟩
    let root := Value.object [("albumRelease",
      .object [("details", .ofInt 1), ("primaryArtists", .array [.ofInt 5, .ofInt 6])])]
    let artist := Value.object [("artist", .object [("id", .number (.real (.ofInt 5)))])]
    let detail := Value.object [("albumReleaseDetail", .object [("id", .ofInt 1)])]
    (a.assemble .albumRelease [root, artist, artist]).warned
        = (a.assemble .albumRelease [root, artist]).warned ∧
      (a.assemble .albumRelease [artist, artist, root]).result
        = (a.assemble .albumRelease [artist, root]).result ∧
      (a.assemble .albumRelease [root, detail, detail]).result
        = .error (.identityMismatch (.object [("id", .ofInt 1)]) (.ofInt 1)) := by
  intro a root artist detail
  have hartist := @assemble_again a .albumRelease ⟨Registry.albumReleaseRules⟩ rfl rfl artist _ _
    rfl rfl
  have hdetail := @assemble_again a .albumRelease ⟨Registry.albumReleaseRules⟩ rfl rfl detail _ _
    rfl rfl
  refine ⟨(hartist [root] []).2.2 _ _ rfl rfl, (hartist [] [root]).1 ?_, ?_⟩
  · intro s hs
    cases hs
    rintro ⟨⟩
  · have hbare : BareFor ⟨"albumReleaseDetail", .object [("id", .ofInt 1)]⟩ (some (.ofInt 1)) :=
      .intro rfl rfl (sameId_self _)
    obtain ⟨id, hid, hresult⟩ := (hdetail [root] []).2.1 _ rfl hbare
    cases hid
    exact hresult

end CatalogAssembly
