import CatalogAssembly.Toml.Value

/-!
# Tables while a TOML document is read

A table remembers how it came about, because that decides what may be added to
it: a table under a header of its own is complete, one that a longer header
implied may still get its own header, and one made by a dotted key may only grow
by dotted keys of the same section or by longer headers.
-/
namespace CatalogAssembly.Toml

inductive Origin where
  | header
  | implied
  | dotted
  deriving DecidableEq, Repr

inductive Item where
  | value (v : Value)
  | table (origin : Origin) (entries : List (String × Item))
  | tables (elements : List (List (String × Item)))
  deriving Inhabited

abbrev Entries := List (String × Item)

structure Table where
  origin : Origin
  entries : Entries

def Item.ofTable (t : Table) : Item := .table t.origin t.entries

def Entries.put (key : String) (item : Item) : Entries → Entries
  | [] => [(key, item)]
  | (k, old) :: rest => if k = key then (k, item) :: rest else (k, old) :: Entries.put key item rest

namespace Table

def put (t : Table) (key : String) (item : Item) : Table :=
  ⟨t.origin, Entries.put key item t.entries⟩

/-- Changes the table at the end of a path, making the tables that are missing on
the way. In an array of tables the path goes on in the last one. A dotted key
does not lead into a table that has a header. -/
def update (dotted : Bool) (change : Table → Option Table) : List String → Table → Option Table
  | [], t => change t
  | key :: keys, t =>
    match t.entries.lookup key with
    | none => do
      let inner ← update dotted change keys ⟨if dotted then .dotted else .implied, []⟩
      some (t.put key (.ofTable inner))
    | some (.value _) => none
    | some (.table origin entries) =>
      if dotted && origin = .header then none
      else do
        let inner ← update dotted change keys ⟨origin, entries⟩
        some (t.put key (.ofTable inner))
    | some (.tables elements) =>
      match elements.getLast? with
      | none => none
      | some last => do
        let inner ← update dotted change keys ⟨.header, last⟩
        some (t.put key (.tables (elements.dropLast ++ [inner.entries])))

/-- Gives a key that is not yet there its value; `keys` lead to the key's table. -/
def assign (keys : List String) (key : String) (v : Value) (t : Table) : Option Table :=
  let set := fun (inner : Table) =>
    if decide (inner.origin = .dotted) == keys.isEmpty then none
    else if (inner.entries.lookup key).isSome then none
    else some (inner.put key (.value v))
  t.update true set keys

/-- Begins the section of a table. -/
def openTable (keys : List String) (key : String) (t : Table) : Option Table :=
  let start := fun (inner : Table) =>
    match inner.entries.lookup key with
    | none => some (inner.put key (.table .header []))
    | some (.table .implied entries) => some (inner.put key (.table .header entries))
    | some _ => none
  t.update false start keys

/-- Begins the section of one more table in an array. -/
def openElement (keys : List String) (key : String) (t : Table) : Option Table :=
  let start := fun (inner : Table) =>
    match inner.entries.lookup key with
    | none => some (inner.put key (.tables [[]]))
    | some (.tables elements) => some (inner.put key (.tables (elements ++ [[]])))
    | some _ => none
  t.update false start keys

end Table

mutual

def Item.toValue : Item → Value
  | .value v => v
  | .table _ entries => .table (entryValues entries)
  | .tables elements => .array (elementValues elements)

def entryValues : List (String × Item) → List (String × Value)
  | [] => []
  | (k, item) :: rest => (k, item.toValue) :: entryValues rest

def elementValues : List (List (String × Item)) → List Value
  | [] => []
  | entries :: rest => .table (entryValues entries) :: elementValues rest

end

end CatalogAssembly.Toml
