import CatalogAssembly.Proofs.Release

/-!
# Slots that are resolved

An object in a slot of an album release does not wait for a payload any more. In
`details` and `userDetails` it stays, with the identifier it has, to the end of the
run. The user details of a track stay as long as the track does: a track that comes
again takes the place of the whole element of the collection, and with it goes what
was written below.
-/
namespace CatalogAssembly

open Json (Value)

namespace Release

/-- Both have the same identifier, or both have none. -/
def SameIdentity (x y : Value) : Prop :=
  x.slotId? = y.slotId? ∨ matchingIds x.slotId? y.slotId? = true

theorem SameIdentity.matchingIds {x y : Value} (h : SameIdentity x y) {a : Option Value}
    (hy : CatalogAssembly.matchingIds y.slotId? a = true) :
    CatalogAssembly.matchingIds x.slotId? a = true := by
  obtain h | h := h
  · rwa [h]
  · exact matchingIds_trans h hy

/-- A slot holds an object with the identity of a value. -/
def HoldsAs (v : Value) (slot : Option Value) : Prop :=
  ∃ fields, slot = some (.object fields) ∧ SameIdentity v (.object fields)

theorem HoldsAs.put {v x : Value} (h : HoldsAs v (some x)) {name : String} (hname : name ≠ "id")
    (p : Path) (w : Value) : HoldsAs v (some (Path.put (.key name :: p) x w)) := by
  obtain ⟨fields, hx, hsame⟩ := h
  obtain rfl := Option.some.inj hx
  obtain ⟨fields', hput⟩ := Path.exists_fields_put (.key name) p fields w
  have hd : Path.Diverge (.key name :: p) [.key "id"] := .here hname
  refine ⟨fields', congrArg some hput, ?_⟩
  rwa [← hput, SameIdentity, Path.slotId?_put_of_diverge hd]

section Step

variable {mode : Mode} {f : Fragment} {p : Path} {s t current v : Value}

/-- Nothing that holds an object is filled. -/
theorem HoldsAs.not_waiting (h : HoldsAs v (p.get? s)) : ¬ Fills mode f p s t current := by
  intro hfill
  obtain ⟨fields, hread, -⟩ := h
  exact hfill.not_object fields (Option.some.inj (hfill.waiting.symm.trans hread))

/-- What a slot holds is kept wherever a fragment is written. -/
def Steady (slot : Path) : Prop :=
  ∀ ⦃mode f p s t current v⦄, Place f s p → Fills mode f p s t current →
    HoldsAs v (slot.get? s) → HoldsAs v (slot.get? t)

theorem steady_details : Steady details := by
  intro mode f p s t current v hplace hfill h
  cases hplace with
  | details => exact absurd hfill h.not_waiting
  | userDetails =>
    have hd : Path.Diverge userDetails details := .here (by decide)
    rwa [hfill.apart hd]
  | artists =>
    have hd : Path.Diverge artists details := .here (by decide)
    rwa [hfill.apart hd]
  | tracks =>
    obtain ⟨fields, hread, hsame⟩ := h
    have habove : details.get? t = _ := hfill.above (q := details) (r := [.key "tracks"])
    rw [habove, hread, Option.map_some]
    exact HoldsAs.put ⟨fields, rfl, hsame⟩ (by decide) [] _
  | @trackUserDetails _ i =>
    obtain ⟨fields, hread, hsame⟩ := h
    have habove : details.get? t = _ :=
      hfill.above (q := details) (r := [.key "tracks", .index i, .key "userDetails"])
    rw [habove, hread, Option.map_some]
    exact HoldsAs.put ⟨fields, rfl, hsame⟩ (by decide) [.index i, .key "userDetails"] _

theorem steady_userDetails : Steady userDetails := by
  intro mode f p s t current v hplace hfill h
  have hapart (hd : Path.Diverge p userDetails) : HoldsAs v (userDetails.get? t) := by
    rwa [hfill.apart hd]
  cases hplace with
  | userDetails => exact absurd hfill h.not_waiting
  | details => exact hapart (.here (by decide))
  | artists => exact hapart (.here (by decide))
  | tracks => exact hapart (.here (by decide))
  | trackUserDetails => exact hapart (.here (by decide))

/-- The track at a position has the identity of one value, and its user details that of another. -/
def TrackHolds (i : Nat) (track user s : Value) : Prop :=
  ∃ element, (tracks.atIndex i).get? s = some element ∧ SameIdentity track element ∧
    HoldsAs user (userDetails.get? element)

/-- A track fragment that comes for a track brings its user details with it. -/
def BringsUser (track user : Value) (f : Fragment) : Prop :=
  f.key = FragmentKind.track.name → matchingIds track.slotId? f.id? = true →
    HoldsAs user (userDetails.get? f.payload)

theorem TrackHolds.of_fills {i : Nat} {track user : Value} (h : TrackHolds i track user s)
    (hplace : Place f s p) (hfill : Fills mode f p s t current) (hf : BringsUser track user f) :
    TrackHolds i track user t := by
  obtain ⟨element, hread, hid, hslot⟩ := h
  cases hplace with
  | details =>
    -- what has tracks in it does not wait for details
    have hnone := hfill.get?_below_key "tracks" [.index i]
    cases hnone.symm.trans hread
  | userDetails =>
    have hd : Path.Diverge userDetails (tracks.atIndex i) := .here (by decide)
    exact ⟨element, (hfill.apart hd).trans hread, hid, hslot⟩
  | artists =>
    have hd : Path.Diverge artists (tracks.atIndex i) := .here (by decide)
    exact ⟨element, (hfill.apart hd).trans hread, hid, hslot⟩
  | tracks hkey =>
    -- the one case in which the element is another one afterwards
    refine ⟨fillElement f element, hfill.collection_of_child? hread, ?_⟩
    by_cases hm : matchingIds element.slotId? f.id? = true
    · rw [fillElement, if_pos hm]
      have htrack := hid.matchingIds hm
      exact ⟨.inr (Value.matchingIds_slotId?_right htrack), hf hkey htrack⟩
    · rw [fillElement, if_neg hm]
      exact ⟨hid, hslot⟩
  | @trackUserDetails items j other _ _ collection here _ =>
    -- written at this very position it would take the place of the object that is kept
    by_cases hij : j = i
    · subst hij
      have hheld : HoldsAs user ((trackUserDetails j).get? s) := by
        rwa [Path.get?_join, hread]
      exact absurd hfill hheld.not_waiting
    · have htracks : tracks.get? t
          = some (.array (items.set j (userDetails.put other (filled f current)))) := by
        rw [hfill.put]
        exact Path.get?_put_below collection here userDetails _
      rw [Path.get?_atIndex, collection] at hread
      refine ⟨element, ?_, hid, hslot⟩
      rw [Path.get?_atIndex, htracks]
      exact (List.getElem?_set_ne hij).trans hread

end Step

section Run

variable {a : Assembler} {kind : EntityKind} {position : Nat} {fragments : List Value}
  {s t v : Value}

theorem HoldsAs.of_run {slot : Path} (hslot : Steady slot) (ha : a.adopter = .passThrough)
    (hs : HoldsAs v (slot.get? s))
    (h : (a.run kind ⟨Registry.albumReleaseRules⟩ position (some s) fragments).result
      = .ok (some t)) : HoldsAs v (slot.get? t) := by
  refine run_keeps (P := fun u => HoldsAs v (slot.get? u)) ha ?_ hs h
  intro raw _ f p u w current _ hu hplace hfill
  exact hslot hplace hfill hu

theorem TrackHolds.of_run (ha : a.adopter = .passThrough) {i : Nat} {track user : Value}
    (hs : TrackHolds i track user s)
    (hbrings : ∀ raw ∈ fragments, ∀ f, Fragment.parse raw = .ok f → BringsUser track user f)
    (h : (a.run kind ⟨Registry.albumReleaseRules⟩ position (some s) fragments).result
      = .ok (some t)) : TrackHolds i track user t := by
  refine run_keeps (P := TrackHolds i track user) ha ?_ hs h
  intro raw hraw f p u w current hf hu hplace hfill
  exact hu.of_fills hplace hfill (hbrings raw hraw f hf)

end Run

end Release

/-- What is resolved in an album release stays resolved with its identifier, the user details
of a track unless the track comes again without them. -/
theorem resolved_slot_kept {a : Assembler} {kind : EntityKind} {fragments : List Value}
    {r : Option Value} (hregistry : a.registry = .builtin) (ha : a.adopter = .passThrough)
    (h : (a.assemble kind fragments).result = .ok r) {m n : Nat} (hmn : m ≤ n) {s : Value}
    (hs : a.stateAfter kind ⟨Registry.albumReleaseRules⟩ fragments m = .ok (some s)) :
    ∃ t, a.stateAfter kind ⟨Registry.albumReleaseRules⟩ fragments n = .ok (some t) ∧
      (∀ fields, Release.details.get? s = some (.object fields) →
        Release.HoldsAs (.object fields) (Release.details.get? t)) ∧
      (∀ fields, Release.userDetails.get? s = some (.object fields) →
        Release.HoldsAs (.object fields) (Release.userDetails.get? t)) ∧
      ∀ i track fields, (Release.tracks.atIndex i).get? s = some track →
        Release.userDetails.get? track = some (.object fields) →
        Release.HoldsAs (.object fields) ((Release.trackUserDetails i).get? t) ∨
          ∃ raw ∈ (fragments.take n).drop m, ∃ f, Fragment.parse raw = .ok f ∧
            f.key = FragmentKind.track.name ∧ matchingIds track.slotId? f.id? = true ∧
            ¬ Release.HoldsAs (.object fields) (Release.userDetails.get? f.payload) := by
  have hd : a.registry.descriptor? kind = some ⟨Registry.albumReleaseRules⟩ := by
    rw [hregistry, Release.descriptor?_builtin]
  obtain ⟨t, position, ht, hrun⟩ :=
    Assembler.exists_later_state (a.run_of_assemble hd h) hmn hs
  have hkept {slot : Path} (hslot : Release.Steady slot) (fields : List (String × Value))
      (hfields : slot.get? s = some (.object fields)) :
      Release.HoldsAs (.object fields) (slot.get? t) :=
    Release.HoldsAs.of_run hslot ha ⟨fields, hfields, .inl rfl⟩ hrun
  refine ⟨t, ht, hkept Release.steady_details, hkept Release.steady_userDetails, ?_⟩
  intro i track fields htrack hfields
  by_cases hbrings : ∀ raw ∈ (fragments.take n).drop m, ∀ f, Fragment.parse raw = .ok f →
      Release.BringsUser track (.object fields) f
  · left
    have hholds : Release.TrackHolds i track (.object fields) s :=
      ⟨track, htrack, .inl rfl, fields, hfields, .inl rfl⟩
    obtain ⟨element, helement, -, hslot⟩ := hholds.of_run ha hbrings hrun
    rwa [Path.get?_join, helement]
  · right
    simpa [Release.BringsUser] using hbrings

/-- The user details of a track outlast a second payload for another track. -/
theorem resolved_slot_kept_other_track :
    let a : Assembler := ⟨.builtin, .strict, .passThrough⟩
    let root := Value.object [("albumRelease", .object [("details", .ofInt 1), ("id", .ofInt 1)])]
    let detail := Value.object [("albumReleaseDetail",
      .object [("id", .ofInt 1), ("tracks", .array [.ofInt 7, .ofInt 8])])]
    let seven := Value.object [("track", .object [("id", .ofInt 7)])]
    let eight := Value.object [("track", .object [("id", .ofInt 8), ("userDetails", .string "u")])]
    let fields := [("id", Value.string "u"), ("parentTrack", .ofInt 8)]
    let user := Value.object [("trackUserDetail", .object fields)]
    let fragments := [root, detail, seven, eight, user, seven]
    ∃ s t, a.stateAfter .albumRelease ⟨Registry.albumReleaseRules⟩ fragments 5 = .ok (some s) ∧
      (Release.trackUserDetails 1).get? s = some (.object fields) ∧
      a.stateAfter .albumRelease ⟨Registry.albumReleaseRules⟩ fragments 6 = .ok (some t) ∧
      Release.HoldsAs (.object fields) ((Release.trackUserDetails 1).get? t) := by
  intro a root detail seven eight fields user fragments
  have hassemble : ∃ r, (a.assemble .albumRelease fragments).result = .ok r := ⟨_, rfl⟩
  obtain ⟨r, h⟩ := hassemble
  have hmn : 5 ≤ 6 := by decide
  obtain ⟨t, ht, -, -, htracks⟩ := resolved_slot_kept rfl rfl h hmn rfl
  refine ⟨_, t, rfl, rfl, ht, ?_⟩
  obtain hheld | ⟨raw, hraw, f, hf, -, hmatch, -⟩ := htracks 1 _ fields rfl rfl
  · exact hheld
  · obtain rfl := List.mem_singleton.mp hraw
    cases hf
    exact absurd hmatch (by decide)

/-- A track that comes again takes the user details with it: where the object with the
identifier 500 was written, the bare identifier waits once more. -/
theorem track_again_drops_user_details :
    let a : Assembler := ⟨.builtin, .lenient, .passThrough⟩
    let root := Value.object [("albumRelease", .object [("details", .ofInt 1), ("id", .ofInt 1)])]
    let detail := Value.object [("albumReleaseDetail",
      .object [("id", .ofInt 1), ("tracks", .array [.ofInt 100])])]
    let track := Value.object [("track", .object [("id", .ofInt 100), ("userDetails", .ofInt 500)])]
    let payload := Value.object [("id", .ofInt 500), ("parentTrack", .ofInt 100),
      ("rating", .ofInt 5)]
    let user := Value.object [("trackUserDetail", payload)]
    let fragments := [root, detail, track, user, track]
    ∃ before s t, (a.assemble .albumRelease fragments).result = .ok (some t) ∧
      a.stateAfter .albumRelease ⟨Registry.albumReleaseRules⟩ fragments 3 = .ok (some before) ∧
      (Release.trackUserDetails 0).get? before = some (.ofInt 500) ∧
      a.stateAfter .albumRelease ⟨Registry.albumReleaseRules⟩ fragments 4 = .ok (some s) ∧
      (Release.trackUserDetails 0).get? s = some payload ∧
      a.stateAfter .albumRelease ⟨Registry.albumReleaseRules⟩ fragments 5 = .ok (some t) ∧
      (Release.trackUserDetails 0).get? t = some (.ofInt 500) := by
  intro a root detail track payload user fragments
  exact ⟨_, _, _, rfl, rfl, rfl, rfl, rfl, rfl, rfl⟩

end CatalogAssembly
