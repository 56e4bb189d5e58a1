import CatalogAssembly.Proofs.States
import CatalogAssembly.Proofs.Tracks

/-!
# The shape of an album release

Under the built-in schema fragments are written at five places of a release, each
with its kind of fragment: `Place`. None of them takes a name from the release or
adds one, and those which are no place of a fragment keep their values. The tracks,
once they are a collection, keep their number and order and each its identifier:
details that are there block other ones, a track goes where its identifier is, and
the details of a user are written below the identifier.
-/
namespace CatalogAssembly

open Json (Value)

namespace Release

abbrev details : Path := [.key "details"]

abbrev userDetails : Path := [.key "userDetails"]

abbrev artists : Path := [.key "primaryArtists"]

abbrev tracks : Path := [.key "details", .key "tracks"]

abbrev trackUserDetails (i : Nat) : Path := (tracks.atIndex i).join userDetails

/-- Where a fragment is written into a release. -/
inductive Place (f : Fragment) (release : Value) : Path → Prop
  | details (hkey : f.key = FragmentKind.albumReleaseDetail.name) : Place f release details
  | userDetails (hkey : f.key = FragmentKind.albumReleaseUserDetail.name) :
      Place f release userDetails
  | artists (hkey : f.key = FragmentKind.artist.name) : Place f release artists
  | tracks (hkey : f.key = FragmentKind.track.name) : Place f release tracks
  | trackUserDetails {items : List Value} {i : Nat} {element ident : Value}
      (hkey : f.key = FragmentKind.trackUserDetail.name)
      (collection : tracks.get? release = some (.array items)) (here : items[i]? = some element)
      (hid : HasId ident element) : Place f release (trackUserDetails i)

theorem place_of_rule {f : Fragment} {release : Value} {rule : Rule} {base path : Path}
    (hrule : (⟨Registry.albumReleaseRules⟩ : Descriptor).rule? f.key = some rule)
    (starts : Starts f.payload release rule base) (hp : rule.path? = some path) :
    Place f release (base.join path) := by
  have hmem := Descriptor.mem_of_rule? hrule
  simp only [Registry.albumReleaseRules, List.mem_cons, Prod.mk.injEq, List.not_mem_nil,
    or_false] at hmem
  rcases hmem with ⟨-, rfl⟩ | ⟨hkey, rfl⟩ | ⟨hkey, rfl⟩ | ⟨hkey, rfl⟩ | ⟨hkey, rfl⟩ | ⟨hkey, rfl⟩
  · cases hp
  · cases starts
    cases hp
    exact .details hkey
  · cases starts
    cases hp
    exact .userDetails hkey
  · cases starts
    cases hp
    exact .artists hkey
  · cases starts
    cases hp
    exact .tracks hkey
  · cases hp
    cases starts with
    | indexed collection here accepted first =>
      obtain ⟨ident, _, hident, -, -⟩ := matchingIds_iff.mp accepted
      exact .trackUserDetails hkey collection here (.of_accepts hident accepted)

/-- A place lies in one of three fields of the release. -/
theorem Place.exists_name {f : Fragment} {release : Value} {p : Path} (h : Place f release p) :
    ∃ name r, p = .key name :: r ∧ name ∈ ["details", "userDetails", "primaryArtists"] := by
  cases h with
  | details | userDetails | artists | tracks | trackUserDetails =>
    exact ⟨_, _, rfl, by decide⟩

/-- A step leaves the release as it is or fills one of the places. -/
theorem step_fills {a : Assembler} (ha : a.adopter = .passThrough) {kind : EntityKind}
    {position : Nat} {raw s t : Value}
    (h : (a.step kind ⟨Registry.albumReleaseRules⟩ position (some s) raw).result = .ok (some t)) :
    t = s ∨ ∃ f p current, Fragment.parse raw = .ok f ∧ Place f s p ∧
      Fills a.mode f p s t current := by
  obtain hsame | ⟨f, rule, base, path, current, hf, hrule, starts, hp, hfill⟩ :=
    Assembler.step_fills ha h
  · exact .inl hsame
  · exact .inr ⟨f, _, current, hf, place_of_rule hrule starts hp, hfill⟩

/-- What is no object stays, and an object keeps its names and all values but those of the
three fields that take payloads. -/
inductive KeepsFields : Value → Value → Prop
  | bare {v : Value} (h : ∀ fields, v ≠ .object fields) : KeepsFields v v
  | object {fields fields' : List (String × Value)}
      (names : fields'.map (·.1) = fields.map (·.1))
      (others : ∀ name, name ∉ ["details", "userDetails", "primaryArtists"] →
        fields'.lookup name = fields.lookup name) :
      KeepsFields (.object fields) (.object fields')

theorem KeepsFields.refl (v : Value) : KeepsFields v v := by
  cases v with
  | object fields => exact .object rfl fun _ _ => rfl
  | _ => exact .bare nofun

section Step

variable {mode : Mode} {f : Fragment} {p : Path} {s t current root : Value}

theorem KeepsFields.fills (h : KeepsFields root s) (hplace : Place f s p)
    (hfill : Fills mode f p s t current) : KeepsFields root t := by
  obtain ⟨name, r, rfl, hname⟩ := hplace.exists_name
  obtain ⟨_, _, hs, ht, hshape⟩ := hfill.frame.onTheWay [] (.key name) r rfl
  obtain rfl := Option.some.inj hs
  obtain rfl := Option.some.inj ht
  cases h with
  | bare hbare =>
    have hwaiting := hfill.waiting
    cases s with
    | object fields => exact absurd rfl (hbare fields)
    | _ => cases hwaiting
  | @object fields fields' names others =>
    cases hshape with
    | @object _ fields'' names' =>
      refine .object (names'.trans names) fun other hother => ?_
      have hd : Path.Diverge (.key name :: r) [.key other] :=
        .here fun he : name = other => hother (he ▸ hname)
      have hread := hfill.apart hd
      rw [Path.get?_key, Path.get?_key] at hread
      exact Eq.trans hread (others other hother)

/-- A track that has an identifier has the same later on, and one that has none stays. -/
def SameTrack (x y : Value) : Prop :=
  matchingIds x.slotId? y.slotId? = true ∨ x.slotId? = none ∧ y = x

theorem SameTrack.refl (x : Value) : SameTrack x x := by
  cases h : x.slotId? with
  | none => exact .inr ⟨h, rfl⟩
  | some v => exact .inl (by rw [h]; exact sameId_self v)

theorem SameTrack.trans {x y z : Value} (hxy : SameTrack x y) (hyz : SameTrack y z) :
    SameTrack x z := by
  obtain hxy | ⟨hx, rfl⟩ := hxy
  · obtain hyz | ⟨hy, rfl⟩ := hyz
    · exact .inl (matchingIds_trans hxy hyz)
    · exact .inl hxy
  · exact hyz

theorem sameTrack_fillElement (f : Fragment) (x : Value) : SameTrack x (fillElement f x) := by
  rw [fillElement]
  by_cases hm : matchingIds x.slotId? f.id? = true
  · rw [if_pos hm]
    exact .inl (Value.matchingIds_slotId?_right hm)
  · rw [if_neg hm]
    exact .refl x

theorem sameTrack_put {ident x : Value} (hid : HasId ident x) (w : Value) :
    SameTrack x (userDetails.put x w) := by
  obtain ⟨v, hv, -⟩ := HasId.iff_slotId?.mp hid
  refine .inl ?_
  rw [Path.slotId?_put_of_diverge (.here (by decide)), hv]
  exact sameId_self v

/-- The same tracks in the same order. -/
def SameTracks (xs ys : List Value) : Prop :=
  ys.length = xs.length ∧ ∀ (i : Nat) x y, xs[i]? = some x → ys[i]? = some y → SameTrack x y

/-- The tracks are the same ones as these. -/
def TracksAs (items : List Value) (s : Value) : Prop :=
  ∃ items', tracks.get? s = some (.array items') ∧ SameTracks items items'

theorem SameTracks.refl (xs : List Value) : SameTracks xs xs := by
  refine ⟨rfl, fun i x y hx hy => ?_⟩
  obtain rfl := Option.some.inj (hx.symm.trans hy)
  exact .refl x

theorem SameTracks.trans {xs ys zs : List Value} (hxy : SameTracks xs ys)
    (hyz : SameTracks ys zs) : SameTracks xs zs := by
  refine ⟨hyz.1.trans hxy.1, fun i x z hx hz => ?_⟩
  obtain ⟨hi, -⟩ := List.getElem?_eq_some_iff.mp hz
  have hlt : i < ys.length := hyz.1 ▸ hi
  have hy : ys[i]? = some ys[i] := List.getElem?_eq_getElem hlt
  exact (hxy.2 i x _ hx hy).trans (hyz.2 i _ z hy hz)

theorem sameTracks_map {k : Value → Value} (hk : ∀ x, SameTrack x (k x)) (xs : List Value) :
    SameTracks xs (xs.map k) := by
  refine ⟨List.length_map k, fun i x y hx hy => ?_⟩
  rw [List.getElem?_map, hx] at hy
  obtain rfl := Option.some.inj hy
  exact hk x

theorem sameTracks_set {xs : List Value} {i : Nat} {x x' : Value} (hx : xs[i]? = some x)
    (h : SameTrack x x') : SameTracks xs (xs.set i x') := by
  refine ⟨List.length_set, fun j y z hy hz => ?_⟩
  by_cases hij : i = j
  · subst hij
    obtain ⟨hi, -⟩ := List.getElem?_eq_some_iff.mp hx
    rw [List.getElem?_set_self hi] at hz
    obtain rfl := Option.some.inj (hx.symm.trans hy)
    obtain rfl := Option.some.inj hz
    exact h
  · rw [List.getElem?_set_ne hij, hy] at hz
    obtain rfl := Option.some.inj hz
    exact .refl y

/-- Whichever place is filled, the tracks are the same afterwards. -/
theorem sameTracks_of_fills {items : List Value} (hplace : Place f s p)
    (hfill : Fills mode f p s t current) (h : tracks.get? s = some (.array items)) :
    ∃ items', tracks.get? t = some (.array items') ∧ SameTracks items items' := by
  cases hplace with
  | details =>
    -- details with tracks are there already
    have hnone := hfill.get?_below_key "tracks" []
    cases hnone.symm.trans h
  | userDetails =>
    have hd : Path.Diverge userDetails tracks := .here (by decide)
    exact ⟨items, (hfill.apart hd).trans h, .refl items⟩
  | artists =>
    have hd : Path.Diverge artists tracks := .here (by decide)
    exact ⟨items, (hfill.apart hd).trans h, .refl items⟩
  | tracks =>
    obtain rfl : .array items = current := Option.some.inj (h.symm.trans hfill.waiting)
    exact ⟨_, hfill.read, sameTracks_map (sameTrack_fillElement f) items⟩
  | @trackUserDetails items' i element ident _ collection here hid =>
    obtain rfl : items = items' := by
      cases h.symm.trans collection
      rfl
    refine ⟨_, ?_, sameTracks_set here (sameTrack_put hid (filled f current))⟩
    rw [hfill.put]
    exact Path.get?_put_below h here userDetails _

theorem TracksAs.of_fills {items : List Value} (h : TracksAs items s) (hplace : Place f s p)
    (hfill : Fills mode f p s t current) : TracksAs items t := by
  obtain ⟨between, hs, hsame⟩ := h
  obtain ⟨after, ht, hsame'⟩ := sameTracks_of_fills hplace hfill hs
  exact ⟨after, ht, hsame.trans hsame'⟩

end Step

section Run

variable {a : Assembler} {kind : EntityKind} {position : Nat} {fragments : List Value} {s t : Value}

theorem descriptor?_builtin (kind : EntityKind) :
    Registry.builtin.descriptor? kind = some ⟨Registry.albumReleaseRules⟩ := by
  cases kind
  rfl

/-- What is kept wherever a fragment is written is kept by a run. -/
theorem run_keeps {P : Value → Prop} (ha : a.adopter = .passThrough)
    (hfills : ∀ raw ∈ fragments, ∀ f p u v current, Fragment.parse raw = .ok f → P u →
      Place f u p → Fills a.mode f p u v current → P v)
    (hs : P s)
    (h : (a.run kind ⟨Registry.albumReleaseRules⟩ position (some s) fragments).result
      = .ok (some t)) : P t := by
  refine Assembler.run_keeps (fun raw hraw n u v hu hstep => ?_) hs h
  obtain rfl | ⟨f, p, current, hf, hplace, hfill⟩ := step_fills ha hstep
  · exact hu
  · exact hfills raw hraw f p u v current hf hu hplace hfill

theorem run_keepsFields (ha : a.adopter = .passThrough)
    (h : (a.run kind ⟨Registry.albumReleaseRules⟩ position (some s) fragments).result
      = .ok (some t)) : KeepsFields s t :=
  run_keeps ha (fun _ _ _ _ _ _ _ _ hu hplace hfill => hu.fills hplace hfill) (.refl s) h

theorem TracksAs.of_run (ha : a.adopter = .passThrough) {items : List Value}
    (hs : TracksAs items s)
    (h : (a.run kind ⟨Registry.albumReleaseRules⟩ position (some s) fragments).result
      = .ok (some t)) : TracksAs items t :=
  run_keeps ha (fun _ _ _ _ _ _ _ _ hu hplace hfill => hu.of_fills hplace hfill) hs h

end Run

end Release

/-- An album release has the fields its root had, all but three with their values, and
from one state of the run to the next its tracks are the same ones in the same order. -/
theorem assemble_keeps_release {a : Assembler} {kind : EntityKind} {fragments : List Value}
    {entity : Value} (hregistry : a.registry = .builtin) (ha : a.adopter = .passThrough)
    (h : (a.assemble kind fragments).result = .ok (some entity)) :
    (∃ before root after payload, fragments = before ++ root :: after ∧
      Descriptor.Roots ⟨Registry.albumReleaseRules⟩ root payload ∧
      (∀ raw ∈ before ++ after, ∀ payload',
        ¬ Descriptor.Roots ⟨Registry.albumReleaseRules⟩ raw payload') ∧
      Release.KeepsFields payload entity) ∧
    ∀ m n s, m ≤ n →
      a.stateAfter kind ⟨Registry.albumReleaseRules⟩ fragments m = .ok (some s) →
      ∃ t, a.stateAfter kind ⟨Registry.albumReleaseRules⟩ fragments n = .ok (some t) ∧
        ∀ items, Release.tracks.get? s = some (.array items) →
          ∃ items', Release.tracks.get? t = some (.array items') ∧
            Release.SameTracks items items' := by
  have hd : a.registry.descriptor? kind = some ⟨Registry.albumReleaseRules⟩ := by
    rw [hregistry, Release.descriptor?_builtin]
  have hrun := a.run_of_assemble hd h
  constructor
  · obtain ⟨before, root, after, payload, n, hsplit, hroot, hothers, hafter⟩ :=
      a.exists_root_of_run hrun
    exact ⟨before, root, after, payload, hsplit, hroot, hothers, Release.run_keepsFields ha hafter⟩
  · intro m n s hmn hs
    obtain ⟨t, position, ht, hbetween⟩ := Assembler.exists_later_state hrun hmn hs
    refine ⟨t, ht, fun items hitems => ?_⟩
    have hs : Release.TracksAs items s := ⟨items, hitems, .refl items⟩
    exact hs.of_run ha hbetween

/-- A second payload for a track and the details of a user leave two tracks the two they were. -/
theorem assemble_keeps_release_tracks :
    let a : Assembler := ⟨.builtin, .strict, .passThrough⟩
    let root := Value.object [("albumRelease", .object [("details", .ofInt 1), ("id", .ofInt 1)])]
    let detail := Value.object [("albumReleaseDetail",
      .object [("id", .ofInt 1), ("tracks", .array [.ofInt 7, .ofInt 8])])]
    let track := Value.object [("track", .object [("id", .ofInt 8), ("userDetails", .string "u")])]
    let user := Value.object [("trackUserDetail",
      .object [("id", .string "u"), ("parentTrack", .ofInt 8)])]
    let fragments := [root, detail, track, track, user]
    ∃ s t, a.stateAfter .albumRelease ⟨Registry.albumReleaseRules⟩ fragments 2 = .ok (some s) ∧
      a.stateAfter .albumRelease ⟨Registry.albumReleaseRules⟩ fragments 5 = .ok (some t) ∧
      ∃ items', Release.tracks.get? t = some (.array items') ∧
        Release.SameTracks [.ofInt 7, .ofInt 8] items' := by
  intro a root detail track user fragments
  have h : ∃ entity, (a.assemble .albumRelease fragments).result = .ok (some entity) := ⟨_, rfl⟩
  obtain ⟨entity, h⟩ := h
  obtain ⟨-, hstates⟩ := assemble_keeps_release rfl rfl h
  obtain ⟨t, ht, htracks⟩ := hstates 2 5 _ (by decide) rfl
  exact ⟨_, t, rfl, ht, htracks _ rfl⟩

end CatalogAssembly
