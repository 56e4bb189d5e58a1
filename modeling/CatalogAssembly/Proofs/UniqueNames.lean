import CatalogAssembly.Proofs.ByteOrder
import CatalogAssembly.Schema.Document

/-!
# Names in documents

A table of a document has each of its names once, at any depth: a key is given a
value only where it has none, and a table that gets another header, or a value
behind a dotted key, stays where it is. What is read from a table is put in the
order of the names; as no name is there twice, that order is strict, and it is
the order of the names by bytes.
-/
namespace CatalogAssembly

namespace Toml

/-- Every name once, with something that holds of every value. -/
structure Keyed {α : Type} (holds : α → Prop) (entries : List (String × α)) : Prop where
  names : (entries.map (·.1)).Nodup
  values : ∀ entry ∈ entries, holds entry.2

def Value.isAtom : Value → Bool
  | .array _ => false
  | .table _ => false
  | _ => true

/-- No table in the value has a name twice. -/
inductive Value.Unique : Value → Prop
  | atom {v : Value} (h : v.isAtom = true) : Unique v
  | array {items : List Value} (h : ∀ v ∈ items, Unique v) : Unique (.array items)
  | table {entries : List (String × Value)} (names : (entries.map (·.1)).Nodup)
      (values : ∀ entry ∈ entries, Unique entry.2) : Unique (.table entries)

inductive Item.Unique : Item → Prop
  | value {v : Value} (h : v.Unique) : Unique (.value v)
  | table {origin : Origin} {entries : Entries} (names : (entries.map (·.1)).Nodup)
      (values : ∀ entry ∈ entries, Unique entry.2) : Unique (.table origin entries)
  | tables {elements : List Entries} (names : ∀ entries ∈ elements, (entries.map (·.1)).Nodup)
      (values : ∀ entries ∈ elements, ∀ entry ∈ entries, Unique entry.2) :
      Unique (.tables elements)

section Keyed

variable {α : Type} {holds : α → Prop} {entries : List (String × α)} {name : String} {x : α}

theorem Keyed.nil : Keyed holds [] :=
  ⟨List.nodup_nil, fun _ hmem => absurd hmem List.not_mem_nil⟩

theorem Keyed.of_lookup (h : Keyed holds entries) (hx : entries.lookup name = some x) :
    holds x := by
  obtain ⟨before, after, rfl, -⟩ := List.lookup_eq_some_iff.mp hx
  exact h.values (name, x) (by simp)

end Keyed

abbrev Table.Unique (t : Table) : Prop := Keyed Item.Unique t.entries

theorem Item.Unique.ofElements {elements : List Entries}
    (h : ∀ entries ∈ elements, Keyed Item.Unique entries) : (Item.tables elements).Unique :=
  .tables (fun entries hmem => (h entries hmem).names) fun entries hmem => (h entries hmem).values

theorem Item.Unique.elements {elements : List Entries} (h : (Item.tables elements).Unique) :
    ∀ entries ∈ elements, Keyed Item.Unique entries := by
  cases h with
  | tables names values => exact fun entries hmem => ⟨names entries hmem, values entries hmem⟩

theorem Table.Unique.item {t : Table} (h : t.Unique) : (Item.ofTable t).Unique :=
  .table h.names h.values

section Tables

variable {entries : Entries} {key : String} {item : Item} {t t' : Table} {v : Value}
  {keys : List String}

theorem mem_put {entry : String × Item} (h : entry ∈ Entries.put key item entries) :
    entry = (key, item) ∨ entry ∈ entries := by
  induction entries with
  | nil => exact .inl (List.mem_singleton.mp h)
  | cons first rest ih =>
    simp only [Entries.put] at h
    split at h
    next hkey =>
      subst hkey
      exact (List.mem_cons.mp h).imp id (List.mem_cons_of_mem _)
    next =>
      rcases List.mem_cons.mp h with rfl | h
      · exact .inr List.mem_cons_self
      · exact (ih h).imp id (List.mem_cons_of_mem _)

theorem Keyed.put {holds : Item → Prop} (h : Keyed holds entries) (hitem : holds item) :
    Keyed holds (Entries.put key item entries) := by
  constructor
  · have hnames := h.names
    clear h
    induction entries with
    | nil => simp [Entries.put]
    | cons first rest ih =>
      obtain ⟨k, old⟩ := first
      rw [List.map_cons, List.nodup_cons] at hnames
      simp only [Entries.put]
      split
      · exact List.nodup_cons.mpr hnames
      next hkey =>
        rw [List.map_cons, List.nodup_cons]
        refine ⟨fun hmem => ?_, ih hnames.2⟩
        obtain ⟨entry, hentry, hk⟩ := List.mem_map.mp hmem
        rcases mem_put hentry with rfl | hentry
        · exact hkey hk.symm
        · exact hnames.1 (hk ▸ List.mem_map_of_mem hentry)
  · intro entry hentry
    rcases mem_put hentry with rfl | hentry
    · exact hitem
    · exact h.values entry hentry

theorem Table.Unique.put (h : t.Unique) (hitem : item.Unique) : (t.put key item).Unique :=
  Keyed.put h hitem

/-- A change at the end of a path leaves the tables on the way as they should be. -/
theorem Table.Unique.update {dotted : Bool} {change : Table → Option Table}
    (hchange : ∀ {t t' : Table}, t.Unique → change t = some t' → t'.Unique) (h : t.Unique)
    (hupdate : t.update dotted change keys = some t') : t'.Unique := by
  -- By the path; a table that is made on the way starts empty.
  induction keys generalizing t t' with
  | nil => exact hchange h hupdate
  | cons key keys ih =>
    simp only [Table.update] at hupdate
    split at hupdate
    next =>
      obtain ⟨inner, hinner, heq⟩ := Option.bind_eq_some_iff.mp hupdate
      cases heq
      exact h.put (ih .nil hinner).item
    next => cases hupdate
    next origin entries hlookup =>
      split at hupdate
      · cases hupdate
      · obtain ⟨inner, hinner, heq⟩ := Option.bind_eq_some_iff.mp hupdate
        cases heq
        cases h.of_lookup hlookup with
        | table names values => exact h.put (ih ⟨names, values⟩ hinner).item
    next elements hlookup =>
      have helements := (h.of_lookup hlookup).elements
      split at hupdate
      next => cases hupdate
      next last hlast =>
        obtain ⟨inner, hinner, heq⟩ := Option.bind_eq_some_iff.mp hupdate
        cases heq
        have hkeyed : Keyed Item.Unique inner.entries :=
          ih (helements last (List.mem_of_getLast? hlast)) hinner
        exact h.put (.ofElements (List.forall_mem_append.mpr
          ⟨fun entries hmem => helements entries (List.dropLast_subset _ hmem),
            List.forall_mem_singleton.mpr hkeyed⟩))

theorem Table.Unique.assign (h : t.Unique) (hv : v.Unique)
    (hassign : t.assign keys key v = some t') : t'.Unique := by
  refine h.update (fun {inner inner'} hinner hset => ?_) hassign
  split at hset
  · cases hset
  · split at hset
    · cases hset
    · cases hset
      exact hinner.put (.value hv)

theorem Table.Unique.openTable (h : t.Unique) (hopen : t.openTable keys key = some t') :
    t'.Unique := by
  refine h.update (fun {inner inner'} hinner hstart => ?_) hopen
  split at hstart
  next =>
    cases hstart
    exact hinner.put (.table List.nodup_nil fun _ hmem => absurd hmem List.not_mem_nil)
  next entries hlookup =>
    cases hstart
    cases hinner.of_lookup hlookup with
    | table names values => exact hinner.put (.table names values)
  next => cases hstart

theorem Table.Unique.openElement (h : t.Unique) (hopen : t.openElement keys key = some t') :
    t'.Unique := by
  refine h.update (fun {inner inner'} hinner hstart => ?_) hopen
  split at hstart
  next =>
    cases hstart
    exact hinner.put (.ofElements (List.forall_mem_singleton.mpr .nil))
  next elements hlookup =>
    cases hstart
    have helements := (hinner.of_lookup hlookup).elements
    exact hinner.put (.ofElements
      (List.forall_mem_append.mpr ⟨helements, List.forall_mem_singleton.mpr .nil⟩))
  next => cases hstart

theorem map_fst_entryValues (entries : Entries) :
    (entryValues entries).map (·.1) = entries.map (·.1) := by
  induction entries with
  | nil => rfl
  | cons entry entries ih => rw [entryValues, List.map_cons, List.map_cons, ih]

mutual

theorem Item.Unique.toValue : {item : Item} → item.Unique → item.toValue.Unique
  | .value _, .value h => h
  | .table _ _, .table names values =>
    .table (map_fst_entryValues _ ▸ names) (entryValues_unique values)
  | .tables _, .tables names values => .array (elementValues_unique names values)

theorem entryValues_unique : {entries : Entries} → (∀ entry ∈ entries, entry.2.Unique) →
    ∀ entry ∈ entryValues entries, entry.2.Unique
  | [], _ => fun _ hmem => absurd hmem List.not_mem_nil
  | (key, item) :: _, h =>
    List.forall_mem_cons.mpr
      ⟨(h (key, item) List.mem_cons_self).toValue,
        entryValues_unique fun entry hmem => h entry (List.mem_cons_of_mem _ hmem)⟩

theorem elementValues_unique : {elements : List Entries} →
    (∀ entries ∈ elements, (entries.map (·.1)).Nodup) →
    (∀ entries ∈ elements, ∀ entry ∈ entries, entry.2.Unique) →
    ∀ v ∈ elementValues elements, v.Unique
  | [], _, _ => fun _ hmem => absurd hmem List.not_mem_nil
  | entries :: _, names, values =>
    List.forall_mem_cons.mpr
      ⟨.table (map_fst_entryValues entries ▸ names entries List.mem_cons_self)
          (entryValues_unique (values entries List.mem_cons_self)),
        elementValues_unique (fun entries hmem => names entries (List.mem_cons_of_mem _ hmem))
          fun entries hmem => values entries (List.mem_cons_of_mem _ hmem)⟩

end

end Tables

section Reading

variable {cs rest : List Char} {v : Value}

theorem integer?_isAtom {negative : Bool} {n : Nat} (h : integer? negative n = some v) :
    v.isAtom = true := by
  unfold integer? at h
  split at h
  · cases h
    rfl
  · split at h
    · cases h
      rfl
    · cases h

theorem readBased_isAtom {bits : Nat} {isDigit : Char → Bool}
    (h : readBased bits isDigit cs = some (v, rest)) : v.isAtom = true := by
  simp only [readBased, Option.bind_eq_bind, Option.bind_eq_some_iff] at h
  obtain ⟨_, -, w, hw, heq⟩ := h
  cases heq
  exact integer?_isAtom hw

theorem readInteger_isAtom (h : readInteger cs = some (v, rest)) : v.isAtom = true := by
  unfold readInteger at h
  split at h
  · exact readBased_isAtom h
  · exact readBased_isAtom h
  · exact readBased_isAtom h
  · simp only [Option.bind_eq_bind, Option.bind_eq_some_iff] at h
    obtain ⟨_, -, w, hw, heq⟩ := h
    cases heq
    exact integer?_isAtom hw

theorem readSpecialFloat_isAtom (h : readSpecialFloat cs = some (v, rest)) : v.isAtom = true := by
  simp only [readSpecialFloat, Option.bind_eq_bind, Option.bind_eq_some_iff] at h
  obtain ⟨_, -, heq⟩ := h
  cases heq
  rfl

theorem readNumber_isAtom (h : readNumber cs = some (v, rest)) : v.isAtom = true := by
  unfold readNumber at h
  split at h
  · cases h
    rfl
  · split at h
    · dsimp only at h
      split at h
      · cases h
      · cases h
        rfl
    · rcases Option.or_eq_some_iff.mp h with h | ⟨-, h⟩
      · exact readSpecialFloat_isAtom h
      · exact readInteger_isAtom h

/-- What is read up to a depth has no name twice, when what was read before has none. -/
structure ReadsUnique (fuel : Nat) : Prop where
  value {room : Nat} {cs rest : List Char} {v : Value}
    (h : readValue room fuel cs = some (v, rest)) : v.Unique
  items {room : Nat} {done : List Value} {cs rest : List Char} {v : Value}
    (hdone : ∀ w ∈ done, w.Unique) (h : readItems room done fuel cs = some (v, rest)) : v.Unique
  entries {room : Nat} {t : Table} {cs rest : List Char} {v : Value} (ht : t.Unique)
    (h : readEntries room t fuel cs = some (v, rest)) : v.Unique

theorem readsUnique (fuel : Nat) : ReadsUnique fuel := by
  -- The three readers call one another with less fuel.
  induction fuel with
  | zero => exact ⟨nofun, fun _ => nofun, fun _ => nofun⟩
  | succ fuel ih =>
    refine ⟨fun h => ?_, fun hdone h => ?_, fun ht h => ?_⟩
    · unfold readValue at h
      split at h
      · cases h
      · split at h
        · cases h
        · exact ih.items (fun _ hmem => absurd hmem List.not_mem_nil) h
      · split at h
        · cases h
        · split at h
          · cases h
            exact .table List.nodup_nil fun _ hmem => absurd hmem List.not_mem_nil
          · exact ih.entries .nil h
      · obtain ⟨_, -, heq⟩ := Option.map_eq_some_iff.mp h
        cases heq
        exact .atom rfl
      · obtain ⟨_, -, heq⟩ := Option.map_eq_some_iff.mp h
        cases heq
        exact .atom rfl
      · split at h
        · obtain ⟨_, -, heq⟩ := Option.map_eq_some_iff.mp h
          cases heq
          exact .atom rfl
        · exact .atom (readNumber_isAtom h)
    · unfold readItems at h
      split at h
      · cases h
        exact .array fun w hmem => hdone w (List.mem_reverse.mp hmem)
      · split at h
        · cases h
        next w _ hw =>
          have hmore : ∀ x ∈ w :: _, x.Unique := List.forall_mem_cons.mpr ⟨ih.value hw, hdone⟩
          split at h
          · exact ih.items hmore h
          · cases h
            exact .array fun x hmem => hmore x (List.mem_reverse.mp hmem)
          · cases h
    · unfold readEntries at h
      split at h
      · split at h
        · cases h
        next w _ hw =>
          split at h
          · cases h
          next t' hassign =>
            have ht' : t'.Unique := ht.assign (ih.value hw) hassign
            split at h
            · exact ih.entries ht' h
            · cases h
              exact ht'.item.toValue
            · cases h
      · cases h

theorem readAssignment_unique {s s' : Section} (hs : s.root.Unique)
    (h : readAssignment s cs = some (s', rest)) : s'.root.Unique := by
  simp only [readAssignment, Option.bind_eq_bind, Option.bind_eq_some_iff] at h
  obtain ⟨⟨key, _⟩, -, _, -, ⟨w, _⟩, hw, _, -, _, hassign, heq⟩ := h
  cases heq
  simp only [Section.assign, Option.bind_eq_bind, Option.bind_eq_some_iff] at hassign
  obtain ⟨root, hroot, heq⟩ := hassign
  cases heq
  exact hs.update (fun ht hset => ht.assign ((readsUnique _).value hw) hset) hroot

theorem readHeader_unique {s s' : Section} (hs : s.root.Unique)
    (h : readHeader s cs = some (s', rest)) : s'.root.Unique := by
  unfold readHeader at h
  split at h
  · simp only [Option.bind_eq_bind, Option.bind_eq_some_iff] at h
    obtain ⟨_, -, _, -, _, -, root, hroot, heq⟩ := h
    cases heq
    exact hs.openElement hroot
  · simp only [Option.bind_eq_bind, Option.bind_eq_some_iff] at h
    obtain ⟨_, -, _, -, _, -, root, hroot, heq⟩ := h
    cases heq
    exact hs.openTable hroot
  · cases h

theorem readLines_unique {s s' : Section} {fuel : Nat} (hs : s.root.Unique)
    (h : readLines s fuel cs = some s') : s'.root.Unique := by
  induction fuel generalizing s cs with
  | zero => cases h
  | succ fuel ih =>
    unfold readLines at h
    split at h
    · cases h
      exact hs
    · split at h
      next hheader => exact ih (readHeader_unique hs hheader) h
      · cases h
    · split at h
      · exact ih hs h
      · split at h
        next hassignment => exact ih (readAssignment_unique hs hassignment) h
        · cases h

/-- A document that is read has no name twice in a table. -/
theorem unique_of_parse? {text : String} (h : parse? text = some v) : v.Unique := by
  simp only [parse?, Option.bind_eq_bind, Option.bind_eq_some_iff] at h
  obtain ⟨s, hs, heq⟩ := h
  cases heq
  have hroot : s.root.Unique := readLines_unique .nil hs
  exact hroot.item.toValue

end Reading

/-- The fields of a record are values of it. -/
theorem Value.Unique.of_fields? {v : Value} {names : List String} {closed : Bool}
    {fields : Fields} (hv : v.Unique) (h : v.fields? names closed = some fields) :
    ∀ field ∈ fields, field.2.Unique := by
  cases hv with
  | atom hatom =>
    cases v with
    | array | table => cases hatom
    | time text =>
      cases closed with
      | true => cases h
      | false =>
        cases h
        exact fun _ hmem => absurd hmem List.not_mem_nil
    | _ => cases h
  | array hitems =>
    cases h
    exact fun field hmem => hitems field.2 (List.of_mem_zip hmem).2
  | table _ values =>
    simp only [Value.fields?] at h
    split at h
    · cases h
    · cases h
      exact values

end Toml

namespace SchemaDocument

/-- In the strict order of the names by bytes. -/
def Ascending {α : Type} (entries : List (String × α)) : Prop :=
  entries.Pairwise fun a b => Text.bytes a.1 < Text.bytes b.1

section Maps

variable {α : Type} {read : Toml.Value → Option α} {entries : List (String × Toml.Value)}
  {values : List (String × α)} {v : Toml.Value}

theorem Ascending.nodup (h : Ascending values) : (values.map (·.1)).Nodup := by
  rw [List.Nodup, List.pairwise_map]
  refine h.imp fun {a b} hlt heq => ?_
  rw [heq] at hlt
  exact List.lt_irrefl _ hlt

theorem mem_insertByName {entry other : String × α} :
    other ∈ insertByName entry values ↔ other = entry ∨ other ∈ values := by
  induction values with
  | nil => exact List.mem_singleton.trans (or_iff_left List.not_mem_nil).symm
  | cons first rest ih =>
    simp only [insertByName]
    split
    · rw [List.mem_cons, ih, List.mem_cons, or_left_comm]
    · exact List.mem_cons

theorem mem_sortByName {entry : String × α} : entry ∈ sortByName values ↔ entry ∈ values := by
  induction values with
  | nil => rfl
  | cons first rest ih =>
    exact mem_insertByName.trans ((or_congr_right ih).trans List.mem_cons.symm)

theorem Ascending.insertByName {entry : String × α} (h : Ascending values)
    (hnew : ∀ other ∈ values, other.1 ≠ entry.1) : Ascending (insertByName entry values) := by
  induction h with
  | nil => exact List.pairwise_singleton _ _
  | @cons first rest hfirst hrest ih =>
    simp only [SchemaDocument.insertByName]
    split
    next hlt =>
      refine .cons (fun other hmem => ?_) (ih fun other hmem => hnew other (.tail _ hmem))
      obtain rfl | hmem := mem_insertByName.mp hmem
      · exact Text.bytes_lt_iff.mpr hlt
      · exact hfirst other hmem
    next hle =>
      have hlt : Text.bytes entry.1 < Text.bytes first.1 :=
        Text.bytes_lt_iff.mpr (String.not_le.mp fun hge =>
          hnew first (.head _) (String.le_antisymm hge (String.not_lt.mp hle)))
      refine .cons (fun other hmem => ?_) (.cons hfirst hrest)
      obtain _ | ⟨_, hmem⟩ := hmem
      · exact hlt
      · exact List.lt_trans hlt (hfirst other hmem)

theorem ascending_sortByName (h : (values.map (·.1)).Nodup) : Ascending (sortByName values) := by
  induction values with
  | nil => exact .nil
  | cons first rest ih =>
    obtain ⟨hfirst, hrest⟩ := List.nodup_cons.mp h
    exact (ih hrest).insertByName fun other hmem heq =>
      hfirst (List.mem_map.mpr ⟨other, mem_sortByName.mp hmem, heq⟩)

/-- Reading the values of a table keeps its names. -/
theorem mapM_values {values : List (String × α)}
    (h : (entries.mapM fun (name, v) => (read v).map (name, ·)) = some values) :
    values.map (·.1) = entries.map (·.1) ∧
      ∀ value ∈ values, ∃ entry ∈ entries, read entry.2 = some value.2 := by
  induction entries generalizing values with
  | nil =>
    cases h
    exact ⟨rfl, fun _ hmem => absurd hmem List.not_mem_nil⟩
  | cons entry entries ih =>
    simp only [List.mapM_cons, Option.bind_eq_bind, Option.bind_eq_some_iff] at h
    obtain ⟨_, hfirst, rest, hrest, heq⟩ := h
    obtain ⟨x, hx, rfl⟩ := Option.map_eq_some_iff.mp hfirst
    cases heq
    obtain ⟨hnames, hvalues⟩ := ih hrest
    refine ⟨by rw [List.map_cons, List.map_cons, hnames], List.forall_mem_cons.mpr ⟨?_, ?_⟩⟩
    · exact ⟨entry, List.mem_cons_self, hx⟩
    · intro value hmem
      obtain ⟨entry', hentry, hread⟩ := hvalues value hmem
      exact ⟨entry', List.mem_cons_of_mem _ hentry, hread⟩

/-- What is read from a table of unique names is in strict order. -/
theorem readMap_ascending (hv : v.Unique) (h : readMap read v = some values) :
    Ascending values ∧ ∀ value ∈ values, ∃ w : Toml.Value, w.Unique ∧ read w = some value.2 := by
  simp only [readMap, Option.bind_eq_bind, Option.bind_eq_some_iff] at h
  obtain ⟨entries, hentries, pairs, hpairs, heq⟩ := h
  cases heq
  obtain ⟨hnames, hvalues⟩ := mapM_values hpairs
  cases v with
  | table entries' =>
    cases hentries
    cases hv with
    | atom hatom => cases hatom
    | table names uniques =>
      refine ⟨ascending_sortByName (hnames ▸ names), fun value hmem => ?_⟩
      obtain ⟨entry, hentry, hread⟩ := hvalues value (mem_sortByName.mp hmem)
      exact ⟨entry.2, uniques entry hentry, hread⟩
  | _ => cases hentries

end Maps

/-- The entities and the entries of each are maps, in the order of their names. -/
structure IsMap (d : SchemaDocument) : Prop where
  names : Ascending d.entities
  keys : ∀ entity ∈ d.entities, Ascending entity.2

theorem isMap_of_ofToml? {v : Toml.Value} {d : SchemaDocument} (hv : v.Unique)
    (h : ofToml? v = some d) : d.IsMap := by
  simp only [ofToml?, Option.bind_eq_bind, Option.bind_eq_some_iff] at h
  obtain ⟨fields, hfields, entities, hentities, heq⟩ := h
  cases heq
  simp only [Toml.Fields.withDefault] at hentities
  split at hentities
  · cases hentities
    exact ⟨.nil, fun _ hmem => absurd hmem List.not_mem_nil⟩
  next w hw =>
    obtain ⟨before, after, rfl, -⟩ := List.lookup_eq_some_iff.mp hw
    have hunique : w.Unique := hv.of_fields? hfields ("entities", w) (by simp)
    obtain ⟨hnames, hvalues⟩ := readMap_ascending hunique hentities
    refine ⟨hnames, fun entity hmem => ?_⟩
    obtain ⟨inner, hinner, hread⟩ := hvalues entity hmem
    exact (readMap_ascending hinner hread).1

/-- A text that is read as a document gives a map of maps. -/
theorem isMap_of_text {text : String} {d : SchemaDocument}
    (h : (Toml.parse? text).bind ofToml? = some d) : d.IsMap := by
  obtain ⟨v, hv, hd⟩ := Option.bind_eq_some_iff.mp h
  exact isMap_of_ofToml? (Toml.unique_of_parse? hv) hd

end SchemaDocument

end CatalogAssembly
