import CatalogAssembly.Schema.Registry
import CatalogAssembly.Toml.Reader

/-!
# Schema documents

A schema document gives, for each entity and each of its fragments, an entry
with the parts of a rule. `SchemaDocument.registry` makes a registry of it, in
the order of names by code points; the shapes of all entries of an entity are
checked before the entity is registered. `SchemaDocument.ofToml?` reads the
document from TOML, where nothing unknown may stand.
-/
namespace CatalogAssembly

inductive Placement where
  | root
  | direct
  | indexed
  deriving DecidableEq, Repr

/-- The fields by which an element of a collection is found. -/
structure MatchEntry where
  dataField : String
  itemField : String
  deriving DecidableEq, Repr

structure RuleEntry where
  placement : Option Placement
  path : Option String
  parent : Option String
  fields : Option MatchEntry
  deriving DecidableEq, Repr

structure SchemaDocument where
  entities : List (String × List (String × RuleEntry))

namespace RuleEntry

/-- A rule with a parent is indexed, another one with a path is direct, and one
with neither is the root, unless the entry says otherwise. -/
def effectivePlacement (e : RuleEntry) : Placement :=
  match e.placement with
  | some placement => placement
  | none =>
    if e.parent.isSome then .indexed
    else if e.path.isSome then .direct
    else .root

def draft (e : RuleEntry) : Except RuleFault RuleDraft :=
  match e.effectivePlacement, e.path, e.parent, e.fields with
  | .root, none, none, none => .ok .root
  | .root, _, _, _ => .error .rootTakesNothing
  | .direct, some path, none, none => .ok (.direct path)
  | .direct, _, _, _ => .error .directNeedsPath
  | .indexed, some path, some parent, some fields =>
    .ok (.indexed parent path (.fieldEquals fields.dataField fields.itemField))
  | .indexed, _, _, _ => .error .indexedNeedsAll

end RuleEntry

namespace SchemaDocument

def drafts : List (String × RuleEntry) → Except SchemaError (List (String × RuleDraft))
  | [] => .ok []
  | (key, entry) :: rest =>
    match entry.draft with
    | .error fault => .error (.invalidRule key fault)
    | .ok draft => do
      let more ← drafts rest
      .ok ((key, draft) :: more)

def addEntity (r : Registry) (name : String) (entries : List (String × RuleEntry)) :
    Except SchemaError Registry :=
  match EntityKind.ofName? name with
  | none => .error (.unknownEntityKind name)
  | some kind => do
    let drafts ← drafts entries
    r.register kind drafts

def addEntities (r : Registry) :
    List (String × List (String × RuleEntry)) → Except SchemaError Registry
  | [] => .ok r
  | (name, entries) :: rest => do
    let r ← addEntity r name entries
    addEntities r rest

def registry (d : SchemaDocument) : Except SchemaError Registry :=
  addEntities Registry.empty d.entities

/-- Puts an entry before the first that does not have an earlier name. -/
def insertByName {α : Type} (entry : String × α) : List (String × α) → List (String × α)
  | [] => [entry]
  | first :: rest =>
    if first.1 < entry.1 then first :: insertByName entry rest else entry :: first :: rest

/-- In the order of names by code points. -/
def sortByName {α : Type} (entries : List (String × α)) : List (String × α) :=
  entries.foldr insertByName []

def placementNamed? : String → Option Placement
  | "root" => some .root
  | "direct" => some .direct
  | "indexed" => some .indexed
  | _ => none

/-- The name of a placement, or a table with that name for an empty collection. -/
def readPlacement : Toml.Value → Option Placement
  | .string name => placementNamed? name
  | .table [(name, v)] => if v.isEmptyCollection then placementNamed? name else none
  | _ => none

def readMatch (v : Toml.Value) : Option MatchEntry := do
  let fields ← v.fields? ["data_field", "item_field"] true
  let dataField ← fields.required "data_field" Toml.Value.string?
  let itemField ← fields.withDefault "item_field" "id" Toml.Value.string?
  some ⟨dataField, itemField⟩

/-- All fields of an entry may be left out in a table, and none in an array. -/
def readEntry (v : Toml.Value) : Option RuleEntry := do
  let names := ["placement", "path", "parent", "match"]
  let fields ← v.fields? names true
  let isShort := match v with
    | .array items => decide (items.length < names.length)
    | _ => false
  let placement ← fields.optional "placement" readPlacement
  let path ← fields.optional "path" Toml.Value.string?
  let parent ← fields.optional "parent" Toml.Value.string?
  let matching ← fields.optional "match" readMatch
  if isShort then none else some ⟨placement, path, parent, matching⟩

def readMap {α : Type} (read : Toml.Value → Option α) (v : Toml.Value) :
    Option (List (String × α)) := do
  let entries ← v.table?
  let values ← entries.mapM fun (name, v) => (read v).map (name, ·)
  some (sortByName values)

def ofToml? (v : Toml.Value) : Option SchemaDocument := do
  let fields ← v.fields? ["entities"] true
  let entities ← fields.withDefault "entities" [] (readMap (readMap readEntry))
  some ⟨entities⟩

end SchemaDocument

namespace Registry

def parse (text : String) : Except SchemaError Registry :=
  match (Toml.parse? text).bind SchemaDocument.ofToml? with
  | some document => document.registry
  | none => .error .malformed

/-- The registry of a schema file, given what was found at its path. -/
def ofFile (found : Except FileFault FileEntry) : Except SchemaError Registry :=
  match FileEntry.text found with
  | .ok text => parse text
  | .error fault => .error (.unreadable fault)

end Registry

end CatalogAssembly
