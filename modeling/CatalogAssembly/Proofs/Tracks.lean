import CatalogAssembly.Proofs.Frame
import CatalogAssembly.Proofs.Revision

/-!
# Streams of different tracks

A track replaces every element of the collection that waits for it, and the details
of a user go into the first element whose track they are for. Both keep to the
elements with the identifier of their track, and leave it to them, so that neighbours
about different tracks can be exchanged under the built-in schema, whatever is found
where the tracks should be.
-/
namespace CatalogAssembly

open Json (Value)

/-- The element is identified by this, be it a placeholder or a payload put there. -/
def HasId (id element : Value) : Prop := matchingIds element.slotId? (some id) = true

theorem HasId.iff_slotId? {id element : Value} :
    HasId id element ↔ ∃ v, element.slotId? = some v ∧ sameId v id = true := by
  rw [HasId, matchingIds_iff]
  constructor
  · rintro ⟨v, w, hv, hw, h⟩
    obtain rfl := Option.some.inj hw
    exact ⟨v, hv, h⟩
  · rintro ⟨v, hv, h⟩
    exact ⟨v, id, hv, rfl, h⟩

/-- No element is identified by two identifiers that are not the same. -/
theorem HasId.not_of_ne {id other element : Value} (hne : sameId id other = false)
    (h : HasId id element) : ¬ HasId other element := by
  intro h'
  obtain ⟨v, hv, hid⟩ := HasId.iff_slotId?.mp h
  obtain ⟨w, hw, hother⟩ := HasId.iff_slotId?.mp h'
  obtain rfl : v = w := Option.some.inj (hv.symm.trans hw)
  have hsame := sameId_trans (sameId_symm hid) hother
  rw [hne] at hsame
  cases hsame

theorem HasId.of_payloadId? {id payload : Value} (h : payload.payloadId? = some id) :
    HasId id payload :=
  HasId.iff_slotId?.mpr ⟨id, Value.slotId?_of_payloadId? h, sameId_self id⟩

/-- An element whose field `id` is compared is identified by what it is the same as. -/
theorem HasId.of_accepts {id payload element : Value} {dataField : String}
    (hid : Value.present? (payload.field? dataField) = some id)
    (h : (Matcher.fieldEquals dataField "id").accepts payload element = true) :
    HasId id element := by
  rw [Matcher.accepts, hid, matchingIds_iff] at h
  obtain ⟨v, w, hv, hw, hsame⟩ := h
  obtain rfl := Option.some.inj hv
  have hnull : w ≠ .null := ne_null_of_sameId (Value.present?_eq_some.mp hid).2 hsame
  have hslot : element.slotId? = some w := by
    cases element with
    | object fields => exact Value.present?_eq_some.mpr ⟨hw, hnull⟩
    | _ => cases hw
  exact HasId.iff_slotId?.mpr ⟨w, hslot, sameId_symm hsame⟩

/-- The change an edit below an element makes of the element. -/
def Edit.change (path : Path) : Edit → Value → Value
  | .keep _ => id
  | .replace v => (path.put · v)

theorem Edit.value_inElement (items : List Value) (i : Nat) (path : Path) (edit : Edit) :
    (edit.inElement items i path).value (some (.array items))
      = some (.array (items.modify i (edit.change path))) := by
  cases edit with
  | keep w => simp [inElement, value, change]
  | replace v => rfl

section Kept

variable {mode : Mode} {f : Fragment} {raw ident : Value}

theorem revise_direct_eq_ok {p : Path} {here after : Option Value} :
    Rule.revise mode f raw (.direct p) here = .ok after ↔
      (Value.present? here = none ∧ after = here) ∨
        ∃ current, Value.present? here = some current ∧ (∀ e, ¬ Clash mode f p current e) ∧
          after = some (filled f current) := by
  rw [revise_eq_ok]
  simp only [Rule.edit, slotEdit_eq_ok]
  constructor
  · rintro ⟨edit, ⟨hnone, rfl⟩ | ⟨current, hcurrent, hc, rfl⟩, rfl⟩
    · exact .inl ⟨hnone, rfl⟩
    · exact .inr ⟨current, hcurrent, hc, rfl⟩
  · rintro (⟨hnone, rfl⟩ | ⟨current, hcurrent, hc, rfl⟩)
    · exact ⟨_, .inl ⟨hnone, rfl⟩, rfl⟩
    · exact ⟨_, .inr ⟨current, hcurrent, hc, rfl⟩, rfl⟩

theorem revise_direct_some {p : Path} {v : Value} {after : Option Value} (hnull : v ≠ .null) :
    Rule.revise mode f raw (.direct p) (some v) = .ok after ↔
      (∀ e, ¬ Clash mode f p v e) ∧ after = some (filled f v) := by
  have hv : Value.present? (some v) = some v := Value.present?_eq_some.mpr ⟨rfl, hnull⟩
  rw [revise_direct_eq_ok, hv]
  simp

/-- A payload with an identifier keeps to the elements with this identifier. -/
theorem keeps_direct (hid : f.id? = some ident) (p : Path) :
    Keeps (HasId ident) (Rule.revise mode f raw (.direct p)) where
  absent hnone h := by
    obtain ⟨-, hafter⟩ | ⟨current, hcurrent, -⟩ := revise_direct_eq_ok.mp h
    · exact hafter
    · rw [hnone] at hcurrent
      cases hcurrent
  single {v after} hnull harray h := by
    obtain ⟨hc, rfl⟩ := (revise_direct_some hnull).mp h
    obtain ⟨fields, hpayload⟩ := Value.exists_fields_of_payloadId? hid
    have hscalar := isScalar_of_not_clash hnull harray hc
    exact ⟨hscalar, fields, by rw [filled_of_isScalar hscalar, hpayload]⟩
  collection {items after} h :=
    ⟨items.map (fillElement f), ((revise_direct_some (v := .array items) nofun).mp h).2⟩
  confined := by
    have hact : (fun items items' => Rule.revise mode f raw (.direct p) (some (.array items))
        = .ok (some (.array items'))) = fun items items' =>
          (∀ e, ¬ Clash mode f p (.array items) e) ∧ items' = items.map (fillElement f) := by
      funext items items'
      simp [revise_direct_some, filled]
    rw [hact]
    apply Confined.map
    · intro element h
      rw [HasId, ← hid] at h
      rw [fillElement, if_pos h]
      exact .of_payloadId? hid
    · intro element h
      rw [HasId, ← hid] at h
      rw [fillElement, if_neg h]
    · intro items items' hdiffer hc
      refine not_clash_of_map_eq (hdiffer.map_eq ?_) hc
      intro element h
      rwa [hid] at h

theorem revise_indexed_array {parent path : Path} {m : Matcher} {items : List Value}
    {after : Option Value} :
    Rule.revise mode f raw (.indexed parent path m) (some (.array items)) = .ok after ↔
      ∃ i element change, items.findIdx? (m.accepts f.payload) = some i ∧
        items[i]? = some element ∧
        (∃ edit, slotEdit mode f raw ((parent.atIndex i).join path) path (path.get? element)
          = .ok edit ∧ change = edit.change path) ∧
        after = some (.array (items.modify i change)) := by
  have hpresent : Value.present? (some (.array items)) = some (.array items) := rfl
  rw [revise_eq_ok]
  simp only [Rule.edit, hpresent]
  cases hfind : items.findIdx? (m.accepts f.payload) with
  | none => simp
  | some i =>
    obtain ⟨hi, -, -⟩ := List.findIdx?_eq_some_iff_getElem.mp hfind
    simp only [List.getElem?_eq_getElem hi, Option.bind_some]
    constructor
    · rintro ⟨edit', hedit, rfl⟩
      cases hslot :
        slotEdit mode f raw ((parent.atIndex i).join path) path (path.get? items[i]) with
      | error e =>
        rw [hslot] at hedit
        cases hedit
      | ok edit =>
        rw [hslot] at hedit
        cases hedit
        exact ⟨i, items[i], _, rfl, List.getElem?_eq_getElem hi, ⟨edit, hslot, rfl⟩,
          edit.value_inElement items i path⟩
    · rintro ⟨j, element, change, hj, helement, ⟨edit, hslot, rfl⟩, rfl⟩
      obtain rfl : i = j := Option.some.inj hj
      obtain rfl : items[i] = element := Option.some.inj
        ((List.getElem?_eq_getElem hi).symm.trans helement)
      rw [hslot]
      exact ⟨_, rfl, edit.value_inElement items i path⟩

/-- What belongs below an element with an identifier keeps to the elements with it. -/
theorem keeps_indexed {parent : Path} {dataField name : String} (hname : name ≠ "id")
    (hid : Value.present? (f.payload.field? dataField) = some ident) :
    Keeps (HasId ident)
      (Rule.revise mode f raw (.indexed parent [.key name] (.fieldEquals dataField "id"))) where
  absent hnone h := by
    obtain ⟨edit, hedit, -⟩ := revise_eq_ok.mp h
    rw [Rule.edit, hnone] at hedit
    cases hedit
  single {v after} hnull harray h := by
    obtain ⟨edit, hedit, -⟩ := revise_eq_ok.mp h
    rw [Rule.edit, Value.present?_eq_some.mpr ⟨rfl, hnull⟩] at hedit
    cases v with
    | array items => exact absurd rfl (harray items)
    | _ => cases hedit
  collection h := by
    obtain ⟨i, element, edit, -, -, -, hafter⟩ := revise_indexed_array.mp h
    exact ⟨_, hafter⟩
  confined := by
    have hact : (fun items items' => Rule.revise mode f raw
        (.indexed parent [.key name] (.fieldEquals dataField "id")) (some (.array items))
        = .ok (some (.array items'))) = fun items items' => ∃ i element change,
          items.findIdx? ((Matcher.fieldEquals dataField "id").accepts f.payload) = some i ∧
          items[i]? = some element ∧
          (∃ edit, slotEdit mode f raw ((parent.atIndex i).join [.key name]) [.key name]
            (Path.get? [.key name] element) = .ok edit ∧ change = edit.change [.key name]) ∧
          items' = items.modify i change := by
      funext items items'
      simp [revise_indexed_array]
    rw [hact]
    apply Confined.modify
    · intro element h
      exact .of_accepts hid h
    · rintro i element change ⟨edit, -, rfl⟩ h
      cases edit with
      | keep w => exact h
      | replace v =>
        have hd : Path.Diverge [.key name] [.key "id"] := .here hname
        rw [HasId, Edit.change, Path.slotId?_put_of_diverge hd]
        exact h

end Kept

/-- The identifier of the track a fragment is about. -/
def Fragment.track? (f : Fragment) : Option Value :=
  if f.key = FragmentKind.track.name then f.id?
  else if f.key = FragmentKind.trackUserDetail.name then
    Value.present? (f.payload.field? "parentTrack")
  else none

/-- Every fragment about a track enters an album release at its tracks and keeps to
the elements with the identifier of its track. -/
theorem exists_rule_of_track? {f : Fragment} {ident : Value} (h : f.track? = some ident) :
    ∃ rule, (⟨Registry.albumReleaseRules⟩ : Descriptor).rule? f.key = some rule ∧
      rule.access? = some [.key "details", .key "tracks"] ∧
      ∀ mode raw, Keeps (HasId ident) (rule.revise mode f raw) := by
  unfold Fragment.track? at h
  by_cases htrack : f.key = FragmentKind.track.name
  · rw [if_pos htrack] at h
    refine ⟨.direct [.key "details", .key "tracks"], ?_, rfl, fun _ _ => keeps_direct h _⟩
    rw [htrack]
    rfl
  · rw [if_neg htrack] at h
    by_cases hdetail : f.key = FragmentKind.trackUserDetail.name
    · rw [if_pos hdetail] at h
      refine ⟨.indexed [.key "details", .key "tracks"] [.key "userDetails"]
        (.fieldEquals "parentTrack" "id"), ?_, rfl, fun _ _ => keeps_indexed (by decide) h⟩
      rw [hdetail]
      rfl
    · rw [if_neg hdetail] at h
      cases h

/-- Neighbours about different tracks can be exchanged under the built-in schema. -/
theorem assemble_exchange_tracks {a : Assembler} (hregistry : a.registry = .builtin)
    (ha : a.adopter = .passThrough) {x y : Value} {f g : Fragment}
    (hf : Fragment.parse x = .ok f) (hg : Fragment.parse y = .ok g) {ident ident' : Value}
    (hft : f.track? = some ident) (hgt : g.track? = some ident')
    (hne : sameId ident ident' = false) (kind : EntityKind) (xs ys : List Value) :
    Agree (a.assemble kind (xs ++ [x, y] ++ ys)).result
      (a.assemble kind (xs ++ [y, x] ++ ys)).result := by
  obtain ⟨rf, hrf, hp, hkf⟩ := exists_rule_of_track? hft
  obtain ⟨rg, hrg, hp', hkg⟩ := exists_rule_of_track? hgt
  have hd : a.registry.descriptor? kind = some ⟨Registry.albumReleaseRules⟩ := by
    rw [hregistry]
    cases kind
    rfl
  apply assemble_agree hd
  intro n s
  exact run_pair_agree ha hf hg hrf hrg hp hp' (hkf a.mode x) (hkg a.mode y)
    (fun _ => HasId.not_of_ne hne) n s

/-- A track and the details for another one come to the same release in either order. -/
theorem assemble_exchange_tracks_detail :
    let a : Assembler := ⟨.builtin, .strict, .passThrough⟩
    let waiting := Value.object [("id", .ofInt 8), ("userDetails", .string "u")]
    let release := Value.object [("details", .object [("tracks", .array [.ofInt 7, waiting])])]
    let root := Value.object [("albumRelease", release)]
    let seven := Value.object [("id", .number (.real (.ofInt 7)))]
    let detail := Value.object [("id", .string "u"), ("parentTrack", .ofInt 8)]
    let eight := Value.object [("id", .ofInt 8), ("userDetails", detail)]
    let x := Value.object [("track", seven)]
    let y := Value.object [("trackUserDetail", detail)]
    let entity := Value.object [("details", .object [("tracks", .array [seven, eight])])]
    (a.assemble .albumRelease [root, x, y]).result = .ok (some entity) ∧
      (a.assemble .albumRelease [root, y, x]).result = .ok (some entity) := by
  intro a waiting release root seven detail eight x y entity
  have hne : sameId (.number (.real (.ofInt 7))) (.ofInt 8) = false := by decide
  have hx : (a.assemble .albumRelease [root, x, y]).result = .ok (some entity) := rfl
  have hagree : Agree (a.assemble .albumRelease [root, x, y]).result
      (a.assemble .albumRelease [root, y, x]).result :=
    @assemble_exchange_tracks a rfl rfl x y _ _ rfl rfl _ _ rfl rfl hne .albumRelease [root] []
  obtain ⟨e, he, he'⟩ | ⟨e, e', he, -⟩ := hagree
  · cases hx.symm.trans he
    exact ⟨hx, he'⟩
  · cases hx.symm.trans he

end CatalogAssembly
