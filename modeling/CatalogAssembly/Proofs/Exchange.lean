import CatalogAssembly.Proofs.Edit

/-!
# Exchanging neighbours

Two neighbouring fragments change places without a trace in the entity when their
rules enter it at paths that diverge: `run_pair_of_diverge`. Neither edit
is seen by the other, so that both succeed or fail as if each were alone, and what
they put commutes. Everything before and after runs as it did, and an assembly that
succeeds differs in the order of the two fragments' warnings and in nothing else.
-/
namespace CatalogAssembly

open Json (Value)

/-- Both succeed with the same result, or both fail. -/
def Agree {ε α : Type} (r r' : Except ε α) : Prop :=
  (∃ x, r = .ok x ∧ r' = .ok x) ∨ ∃ e e', r = .error e ∧ r' = .error e'

section Agreement

variable {ν ε α β : Type}

theorem Agree.refl (r : Except ε α) : Agree r r := by
  cases r with
  | error e => exact .inr ⟨e, e, rfl, rfl⟩
  | ok x => exact .inl ⟨x, rfl, rfl⟩

/-- Neither succeeds in any way in which the other does not. -/
theorem Agree.of_ok {r r' : Except ε α} (h : ∀ x, r = .ok x → r' = .ok x)
    (h' : ∀ x, r' = .ok x → r = .ok x) : Agree r r' := by
  cases r with
  | ok x => exact .inl ⟨x, rfl, h x rfl⟩
  | error e =>
    cases r' with
    | ok x => cases h' x rfl
    | error e' => exact .inr ⟨e, e', rfl, rfl⟩

theorem Agree.andThen {r r' : Noted ν ε α} (h : Agree r.result r'.result)
    {next next' : α → Noted ν ε β} (hnext : ∀ x, Agree (next x).result (next' x).result) :
    Agree (r.andThen next).result (r'.andThen next').result := by
  obtain ⟨x, hx, hx'⟩ | ⟨e, e', he, he'⟩ := h
  · rw [Noted.andThen_of_ok hx, Noted.andThen_of_ok hx']
    exact hnext x
  · rw [Noted.andThen_of_error he, Noted.andThen_of_error he']
    exact .inr ⟨e, e', rfl, rfl⟩

end Agreement

section Around

variable {a : Assembler} {kind : EntityKind} {d : Descriptor}

theorem run_pair (position : Nat) (s : Option Value) (x y : Value) :
    a.run kind d position s [x, y]
      = (a.step kind d position s x).andThen fun t => a.step kind d (position + 1) t y := by
  simp only [Assembler.run]
  exact congrArg _ (funext fun t => Noted.andThen_pure _)

/-- An assembly taken apart around a pair of fragments. -/
theorem assemble_around (hd : a.registry.descriptor? kind = some d) (xs ys : List Value)
    (x y : Value) :
    a.assemble kind (xs ++ [x, y] ++ ys)
      = (a.run kind d 0 none xs).andThen fun s =>
          (a.run kind d xs.length s [x, y]).andThen fun t =>
            a.complete kind d (xs.length + 2) t ys :=
  a.assemble_split hd xs (List.cons_ne_nil x [y]) ys

/-- Neighbours that can be exchanged from every entity on can be exchanged in every assembly. -/
theorem assemble_agree (hd : a.registry.descriptor? kind = some d) {x y : Value}
    (h : ∀ n s, Agree (a.run kind d n s [x, y]).result (a.run kind d n s [y, x]).result)
    (xs ys : List Value) :
    Agree (a.assemble kind (xs ++ [x, y] ++ ys)).result
      (a.assemble kind (xs ++ [y, x] ++ ys)).result := by
  rw [assemble_around hd, assemble_around hd]
  exact (Agree.refl _).andThen fun s => (h _ s).andThen fun t => .refl _

/-- What an assembly reports when it gets past a pair of fragments. -/
theorem warned_assemble_around (hd : a.registry.descriptor? kind = some d) {xs : List Value}
    {x y : Value} {s t : Option Value} {warnings : List Warning}
    (hs : (a.run kind d 0 none xs).result = .ok s)
    (ht : (a.run kind d xs.length s [x, y]).warned = ⟨warnings, .ok t⟩) (ys : List Value) :
    (a.assemble kind (xs ++ [x, y] ++ ys)).warned
      = ⟨(a.run kind d 0 none xs).warnings ++ warnings
          ++ (a.complete kind d (xs.length + 2) t ys).warnings,
        (a.complete kind d (xs.length + 2) t ys).result⟩ := by
  have hwarnings : (a.run kind d xs.length s [x, y]).warnings = warnings := congrArg Noted.notes ht
  have hresult : (a.run kind d xs.length s [x, y]).result = .ok t := congrArg Noted.result ht
  rw [assemble_around hd, Reported.warned_andThen_of_ok hs, Noted.andThen_of_ok hresult,
    List.append_assoc, ← hwarnings]
  simp only [Reported.warnings, List.filterMap_append]

end Around

section Diverging

variable {a : Assembler} {kind : EntityKind} {d : Descriptor} {x y : Value} {f g : Fragment}
  {rf rg : Rule} {p q : Path}

/-- The second of two fragments whose paths diverge sees what the first one saw. -/
theorem warned_pair_of_diverge (ha : a.adopter = .passThrough) (hf : Fragment.parse x = .ok f)
    (hg : Fragment.parse y = .ok g) (hrf : d.rule? f.key = some rf) (hrg : d.rule? g.key = some rg)
    (hp : rf.access? = some p) (hq : rg.access? = some q) (hd : p.Diverge q) (n : Nat)
    (s : Option Value) :
    (a.run kind d n s [x, y]).warned
      = (edited p s (rf.edit a.mode f x (s.bind p.get?))).andThen fun t =>
          edited q t (rg.edit a.mode g y (s.bind q.get?)) := by
  rw [run_pair, Reported.warned_andThen, warned_step_of_access ha kind d hf hrf hp]
  cases rf.edit a.mode f x (s.bind p.get?) with
  | error e => rfl
  | ok edit =>
    have hread : (edit.apply p s).bind q.get? = s.bind q.get? :=
      Edit.get?_apply_of_diverge hd s edit
    simp only [edited, Noted.andThen, warned_step_of_access ha kind d hg hrg hq, hread]

/-- Two edits at paths that diverge are made in either order, each with its own warnings. -/
theorem edited_pair_of_diverge (hd : p.Diverge q) (s : Option Value)
    (rx ry : Except AssemblyError Edit) :
    (∃ t, (edited p s rx).andThen (edited q · ry)
        = ⟨(edited p s rx).notes ++ (edited q s ry).notes, .ok t⟩ ∧
      (edited q s ry).andThen (edited p · rx)
        = ⟨(edited q s ry).notes ++ (edited p s rx).notes, .ok t⟩) ∨
    ∃ e e', ((edited p s rx).andThen (edited q · ry)).result = .error e ∧
      ((edited q s ry).andThen (edited p · rx)).result = .error e' := by
  cases rx with
  | error e =>
    cases ry with
    | error e' => exact .inr ⟨e, e', rfl, rfl⟩
    | ok edit' => exact .inr ⟨e, e, rfl, rfl⟩
  | ok edit =>
    cases ry with
    | error e => exact .inr ⟨e, e, rfl, rfl⟩
    | ok edit' =>
      refine .inl ⟨edit'.apply q (edit.apply p s), rfl, ?_⟩
      rw [Edit.apply_comm hd]
      rfl

/-- Two fragments whose paths diverge leave the same entity in either order, or fail in both. -/
theorem run_pair_of_diverge (ha : a.adopter = .passThrough) (hf : Fragment.parse x = .ok f)
    (hg : Fragment.parse y = .ok g) (hrf : d.rule? f.key = some rf) (hrg : d.rule? g.key = some rg)
    (hp : rf.access? = some p) (hq : rg.access? = some q) (hd : p.Diverge q) (n : Nat)
    (s : Option Value) :
    (∃ t, (a.run kind d n s [x, y]).warned
        = ⟨(a.step kind d n s x).warnings ++ (a.step kind d n s y).warnings, .ok t⟩ ∧
      (a.run kind d n s [y, x]).warned
        = ⟨(a.step kind d n s y).warnings ++ (a.step kind d n s x).warnings, .ok t⟩) ∨
    ∃ e e', (a.run kind d n s [x, y]).result = .error e ∧
      (a.run kind d n s [y, x]).result = .error e' := by
  have hx : (a.step kind d n s x).warnings = _ :=
    congrArg Noted.notes (warned_step_of_access ha kind d hf hrf hp n s)
  have hy : (a.step kind d n s y).warnings = _ :=
    congrArg Noted.notes (warned_step_of_access ha kind d hg hrg hq n s)
  have hxy : (a.run kind d n s [x, y]).warned = _ :=
    warned_pair_of_diverge ha hf hg hrf hrg hp hq hd n s
  have hyx : (a.run kind d n s [y, x]).warned = _ :=
    warned_pair_of_diverge ha hg hf hrg hrf hq hp hd.symm n s
  obtain ⟨t, h, h'⟩ | ⟨e, e', h, h'⟩ := edited_pair_of_diverge hd s
    (rf.edit a.mode f x (s.bind p.get?)) (rg.edit a.mode g y (s.bind q.get?))
  · rw [hx, hy]
    exact .inl ⟨t, hxy.trans h, hyx.trans h'⟩
  · exact .inr ⟨e, e', (congrArg Noted.result hxy).trans h, (congrArg Noted.result hyx).trans h'⟩

/-- Neighbours whose paths diverge can be exchanged: the assembly fails in both orders, or
it gives the same entity in both and the same warnings but for the order of theirs. -/
theorem assemble_exchange (ha : a.adopter = .passThrough)
    (hdesc : a.registry.descriptor? kind = some d) (hf : Fragment.parse x = .ok f)
    (hg : Fragment.parse y = .ok g) (hrf : d.rule? f.key = some rf) (hrg : d.rule? g.key = some rg)
    (hp : rf.access? = some p) (hq : rg.access? = some q) (hd : p.Diverge q) (xs ys : List Value) :
    (∃ s entity later, (a.run kind d 0 none xs).result = .ok s ∧
      (a.assemble kind (xs ++ [x, y] ++ ys)).warned
        = ⟨(a.run kind d 0 none xs).warnings ++ ((a.step kind d xs.length s x).warnings
            ++ (a.step kind d xs.length s y).warnings) ++ later, .ok entity⟩ ∧
      (a.assemble kind (xs ++ [y, x] ++ ys)).warned
        = ⟨(a.run kind d 0 none xs).warnings ++ ((a.step kind d xs.length s y).warnings
            ++ (a.step kind d xs.length s x).warnings) ++ later, .ok entity⟩) ∨
    ∃ e e', (a.assemble kind (xs ++ [x, y] ++ ys)).result = .error e ∧
      (a.assemble kind (xs ++ [y, x] ++ ys)).result = .error e' := by
  cases hs : (a.run kind d 0 none xs).result with
  | error e =>
    rw [assemble_around hdesc, assemble_around hdesc, Noted.andThen_of_error hs,
      Noted.andThen_of_error hs]
    exact .inr ⟨e, e, rfl, rfl⟩
  | ok s =>
    obtain ⟨t, hxy, hyx⟩ | ⟨e, e', hxy, hyx⟩ :=
      run_pair_of_diverge ha hf hg hrf hrg hp hq hd xs.length s
    · have hwxy := warned_assemble_around hdesc hs hxy ys
      have hwyx := warned_assemble_around hdesc hs hyx ys
      cases hc : (a.complete kind d (xs.length + 2) t ys).result with
      | error e =>
        rw [hc] at hwxy hwyx
        exact .inr ⟨e, e, congrArg Noted.result hwxy, congrArg Noted.result hwyx⟩
      | ok entity =>
        rw [hc] at hwxy hwyx
        exact .inl ⟨s, entity, _, rfl, hwxy, hwyx⟩
    · right
      refine ⟨e, e', ?_, ?_⟩
      · rw [assemble_around hdesc, Noted.andThen_of_ok hs, Noted.andThen_of_error hxy]
      · rw [assemble_around hdesc, Noted.andThen_of_ok hs, Noted.andThen_of_error hyx]

end Diverging

/-- An artist and a detail that are waited for are both written, in either order. -/
theorem assemble_exchange_artist_detail :
    let a : Assembler := ⟨.builtin, .strict, .passThrough⟩
    let root := Value.object [("albumRelease", .object [("details", .ofInt 1), ("id", .ofInt 1),
      ("primaryArtists", .array [.ofInt 4, .ofInt 5])])]
    let someone := Value.object [("id", .ofInt 5), ("name", .string "A")]
    let details := Value.object [("id", .ofInt 1), ("tracks", .array [])]
    let artist := Value.object [("artist", someone)]
    let detail := Value.object [("albumReleaseDetail", details)]
    let entity := Value.object [("details", details), ("id", .ofInt 1),
      ("primaryArtists", .array [.ofInt 4, someone])]
    (a.assemble .albumRelease [root, artist, detail]).warned = ⟨[], .ok (some entity)⟩ ∧
      (a.assemble .albumRelease [root, detail, artist]).warned = ⟨[], .ok (some entity)⟩ := by
  intro a root someone details artist detail entity
  have hd : Path.Diverge [.key "primaryArtists"] [.key "details"] := .here (by decide)
  have hexchange := @assemble_exchange a .albumRelease ⟨Registry.albumReleaseRules⟩ artist detail
    _ _ _ _ _ _ rfl rfl rfl rfl rfl rfl rfl rfl hd [root] []
  have hwritten : (a.assemble .albumRelease [root, artist, detail]).warned
      = ⟨[], .ok (some entity)⟩ := rfl
  refine ⟨hwritten, ?_⟩
  obtain ⟨s, r, later, hs, h, h'⟩ | ⟨e, e', h, -⟩ := hexchange
  · cases hs
    obtain ⟨hlater, hr⟩ := Noted.mk.inj (h.symm.trans hwritten)
    obtain rfl := Except.ok.inj hr
    obtain rfl : later = [] := hlater
    exact h'
  · cases h

end CatalogAssembly
