import CatalogAssembly.Assembly.Error
import CatalogAssembly.Schema.Rule

/-!
# Placing one fragment

`place` says what a fragment with a rule does to the entity built so far. The
place is located first: the entity itself for a direct rule, the first accepted
element of the parent collection for an indexed one. What waits there under the
rule's path is replaced by the payload when the identifiers are the same, in a
collection element by element. An adopter may reshape the new value before it is
written. Where nothing waits the fragment is skipped with a warning.
-/
namespace CatalogAssembly

open Json (Value)

/-- Whether a missing root and an unmatched collection are accepted. -/
inductive Mode where
  | lenient
  | strict
  deriving DecidableEq, Repr

def Mode.ofStrict (strict : Bool) : Mode := if strict then .strict else .lenient

/-- Reshapes a value, given the value it is written under. -/
abbrev Adopter := Value → Value → Value

def Adopter.passThrough : Adopter := fun v _ => v

/-- A message with the value it is about. -/
structure Warning where
  message : String
  context : Value

def Warning.unsupported (raw : Value) : Warning := ⟨"Ignoring unsupported payload", raw⟩

def Warning.noIdentifier (path : Path) (raw : Value) : Warning :=
  ⟨"No identifier found at \"" ++ path.text ++ "\", ignoring payload", raw⟩

/-- What an adopter was given. -/
structure Adoption where
  value : Value
  parent : Value

/-- Where a rule's path starts: a place in the entity and the value there. -/
structure Location where
  base : Path
  target : Value

/-- The first element of the parent collection that the matcher accepts. -/
def locate (parent : Path) (m : Matcher) (payload entity : Value) :
    Except AssemblyError Location :=
  match Value.present? (parent.get? entity) with
  | none => .error (.parentNotFound parent)
  | some (.array items) =>
    match items.findFinIdx? (m.accepts payload) with
    | some i => .ok ⟨parent.atIndex i, items[i]⟩
    | none => .error (.matchNotFound parent)
  | some _ => .error (.expectedCollection parent)

/-- What takes the place of a waiting value; `matched` is false for a collection
in which nothing waited. -/
structure Substitution where
  value : Value
  matched : Bool

/-- An element of a collection, replaced if it waits for the fragment. -/
def fillElement (f : Fragment) (element : Value) : Value :=
  if matchingIds element.slotId? f.id? then f.payload else element

def substitute (mode : Mode) (f : Fragment) (place : Path) (current : Value) :
    Except AssemblyError Substitution :=
  let found := f.id?.getD .null
  match current with
  | .array items =>
    if items.any (fun element => matchingIds element.slotId? f.id?) then
      .ok ⟨.array (items.map (fillElement f)), true⟩
    else
      match mode with
      | .strict => .error (.placeholderNotFound place found)
      | .lenient => .ok ⟨current, false⟩
  | .object _ => .error (.identityMismatch current found)
  | _ =>
    if matchingIds current.slotId? f.id? then .ok ⟨f.payload, true⟩
    else .error (.identityMismatch (current.slotId?.getD current) found)

/-- What became of a fragment. -/
inductive Effect where
  | begun (entity : Value)
  | skipped (warning : Warning)
  | written (place : Path) (adoption : Adoption) (matched : Bool) (entity : Value)

/-- Fills the place under a location, or skips the fragment where nothing waits. -/
def fill (mode : Mode) (adopter : Adopter) (entity : Value) (l : Location) (path : Path)
    (f : Fragment) (raw : Value) : Except AssemblyError Effect :=
  match Value.present? (path.get? l.target) with
  | none => .ok (.skipped (.noIdentifier path raw))
  | some current => do
    let place := l.base.join path
    let s ← substitute mode f place current
    match place.set? entity (adopter s.value l.target) with
    | some entity => .ok (.written place ⟨s.value, l.target⟩ s.matched entity)
    | none => .error (.parentNotFound place)

def place (mode : Mode) (adopter : Adopter) (entity : Option Value) (rule : Rule) (f : Fragment)
    (raw : Value) : Except AssemblyError Effect :=
  match rule, entity with
  | .root, none => .ok (.begun f.payload)
  | .root, some _ => .error (.duplicateRoot f.key)
  | .direct path, none => .ok (.skipped (.noIdentifier path raw))
  | .direct path, some entity => fill mode adopter entity ⟨[], entity⟩ path f raw
  | .indexed parent _ _, none => .error (.parentNotFound parent)
  | .indexed parent path m, some entity => do
    let l ← locate parent m f.payload entity
    fill mode adopter entity l path f raw

end CatalogAssembly
