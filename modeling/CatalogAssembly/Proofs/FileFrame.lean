import CatalogAssembly.Files

/-!
# Files beside the one that is written

Appending to a file changes what that file holds and nothing else: with other bytes at its end
every path leads to the same place, and every other place holds the same. Opening a file to be
appended to may make it, so two ends of the file are compared here and not the file before and
after.
-/
namespace CatalogAssembly

namespace FileTree

/-- Two trees with the same names, of which one file at most differs in what it holds. -/
structure SameBut (place : List String) (t t' : FileTree) : Prop where
  elsewhere (other : List String) (hother : other ≠ place) :
    (t.at? other).map entry = (t'.at? other).map entry
  there : (t.at? place = none ∧ t'.at? place = none) ∨
    ∃ content content', t.at? place = some (.file content) ∧ t'.at? place = some (.file content')

theorem at?_append_singleton (name : String) :
    ∀ (here : List String) (t : FileTree),
      t.at? (here ++ [name]) = (t.at? here).bind (·.child? name)
  | [], t => by
    change (t.child? name).bind some = t.child? name
    exact Option.bind_fun_some _
  | first :: rest, t => by
    change (t.child? first).bind (at? (rest ++ [name])) = ((t.child? first).bind (at? rest)).bind _
    rw [Option.bind_assoc]
    exact congrArg _ (funext (at?_append_singleton name rest))

theorem at?_directory_cons (name : String) (inner : FileTree) (entries : List (String × FileTree))
    (rest : List String) : (directory ((name, inner) :: entries)).at? (name :: rest)
      = inner.at? rest := by
  simp [at?, child?]

theorem at?_directory_cons_ne {name other : String} (hne : other ≠ name) (inner : FileTree)
    (entries : List (String × FileTree)) (rest : List String) :
    (directory ((name, inner) :: entries)).at? (other :: rest)
      = (directory entries).at? (other :: rest) := by
  have hbeq : (other == name) = false := beq_eq_false_iff_ne.mpr hne
  simp only [at?, child?, List.lookup_cons, hbeq]

/-- By the names of the place, one directory after the other. -/
theorem sameBut_insert (content content' : ByteArray) (place : List String) (t : FileTree) :
    SameBut place (insert (.file content) place t) (insert (.file content') place t) := by
  induction place generalizing t with
  | nil =>
    refine ⟨fun other hother => ?_, .inr ⟨content, content', rfl, rfl⟩⟩
    cases other with
    | nil => exact absurd rfl hother
    | cons name rest => rfl
  | cons name rest ih =>
    cases t with
    | file old => exact ⟨fun _ _ => rfl, .inl ⟨rfl, rfl⟩⟩
    | directory entries =>
      have hinner := ih ((entries.lookup name).getD empty)
      constructor
      · intro other hother
        simp only [insert]
        cases other with
        | nil => rfl
        | cons first others =>
          by_cases hfirst : first = name
          · subst hfirst
            rw [at?_directory_cons, at?_directory_cons]
            exact hinner.elsewhere others fun hothers => hother (by rw [hothers])
          · rw [at?_directory_cons_ne hfirst, at?_directory_cons_ne hfirst]
      · simp only [insert, at?_directory_cons]
        exact hinner.there

namespace SameBut

variable {place : List String} {t t' : FileTree} (h : SameBut place t t')

include h

theorem isSome_at? (other : List String) : (t.at? other).isSome = (t'.at? other).isSome := by
  by_cases hother : other = place
  · subst hother
    obtain ⟨hnone, hnone'⟩ | ⟨_, _, hsome, hsome'⟩ := h.there
    · rw [hnone, hnone']
    · rw [hsome, hsome']
      rfl
  · have hentry := congrArg Option.isSome (h.elsewhere other hother)
    rwa [Option.isSome_map, Option.isSome_map] at hentry

/-- A directory in one tree is one in the other, with the same names in it. -/
theorem directory {here : List String} {entries : List (String × FileTree)}
    (hhere : t.at? here = some (.directory entries)) :
    ∃ entries', t'.at? here = some (.directory entries') ∧
      ∀ name, (entries.lookup name).isSome = (entries'.lookup name).isSome := by
  have hne : here ≠ place := by
    rintro rfl
    obtain ⟨hnone, -⟩ | ⟨_, _, hfile, -⟩ := h.there
    · rw [hnone] at hhere
      cases hhere
    · rw [hfile] at hhere
      cases hhere
  have hentry := h.elsewhere here hne
  rw [hhere] at hentry
  obtain ⟨u, hu, hdirectory⟩ := Option.map_eq_some_iff.mp hentry.symm
  cases u with
  | file => cases hdirectory
  | directory entries' =>
    refine ⟨entries', hu, fun name => ?_⟩
    have hname := h.isSome_at? (here ++ [name])
    rwa [at?_append_singleton, at?_append_singleton, hhere, hu] at hname

theorem symm : SameBut place t' t where
  elsewhere other hother := (h.elsewhere other hother).symm
  there := by
    obtain ⟨hnone, hnone'⟩ | ⟨content, content', hsome, hsome'⟩ := h.there
    · exact .inl ⟨hnone', hnone⟩
    · exact .inr ⟨content', content, hsome', hsome⟩

theorem walk_eq (here parts : List String) : walk t here parts = walk t' here parts := by
  induction parts generalizing here with
  | nil => rfl
  | cons part parts ih =>
    unfold walk
    split
    · rename_i entries hhere
      obtain ⟨entries', hhere', hnames⟩ := h.directory hhere
      simp only [hhere', hnames, ih]
    · rename_i hhere
      split
      · rename_i entries' hhere'
        obtain ⟨entries, hdirectory, -⟩ := h.symm.directory hhere'
        exact absurd hdirectory (hhere entries)
      · rfl

end SameBut

end FileTree

namespace FileSystem

/-- The path leads to the place, whatever is there. -/
def LeadsTo (fs : FileSystem) (path : String) (place : List String) : Prop :=
  fs.root.walk [] (fs.parts path) = .ok place

theorem find_eq_of_sameBut {fs : FileSystem} {root : FileTree} {place : List String}
    (hroot : FileTree.SameBut place fs.root root) {path : String}
    (hpath : ¬ fs.LeadsTo path place) :
    ({ fs with root := root } : FileSystem).find path = fs.find path := by
  simp only [find, parts]
  split
  · rfl
  · rw [← hroot.walk_eq]
    split
    · rfl
    · rename_i other hwalk
      have hother := hroot.elsewhere other fun hplace => hpath (by rw [← hplace]; exact hwalk)
      cases hfound : fs.root.at? other with
      | none =>
        rw [hfound, Option.map_none, eq_comm, Option.map_eq_none_iff] at hother
        rw [hother]
      | some t =>
        rw [hfound, Option.map_some, eq_comm, Option.map_eq_some_iff] at hother
        obtain ⟨t', hfound', hentry⟩ := hother
        simp only [hfound', hentry]

theorem find_append_eq {fs : FileSystem} {file path : String} {place : List String}
    (hplace : fs.writable file = .ok place) (bytes bytes' : ByteArray)
    (hpath : ¬ (fs.append file bytes).LeadsTo path place) :
    (fs.append file bytes').find path = (fs.append file bytes).find path := by
  simp only [append, hplace] at hpath ⊢
  exact find_eq_of_sameBut (FileTree.sameBut_insert _ _ place fs.root) hpath

end FileSystem

end CatalogAssembly
