import CatalogAssembly.Assembly.Placement
import CatalogAssembly.Noted
import CatalogAssembly.Schema.Registry

/-!
# Assembling an entity from its fragments

Fragments are placed strictly in order; the first error ends the run. A run takes
notes of everything that happens up to its end, and the warnings and the
adoptions are among them. No fragments make no entity, whatever the kind.
-/
namespace CatalogAssembly

open Json (Value)

def Warning.noRoot (kind : EntityKind) : Warning :=
  ⟨"No root fragment found, entity not assembled", .string kind.name⟩

inductive Note where
  | placing (kind : EntityKind) (key : String) (position : Nat)
  | unmatched (place : Path) (key : String)
  | adopted (adoption : Adoption)
  | warned (warning : Warning)

/-- What an assembly comes to, with the notes taken on the way. -/
abbrev Reported (α : Type) := Noted Note AssemblyError α

namespace Reported

variable {α : Type}

def warnings (r : Reported α) : List Warning :=
  r.notes.filterMap fun
    | .warned w => some w
    | _ => none

def adoptions (r : Reported α) : List Adoption :=
  r.notes.filterMap fun
    | .adopted a => some a
    | _ => none

end Reported

namespace Effect

/-- The entity after a fragment had this effect. -/
def entity (before : Option Value) : Effect → Option Value
  | .begun entity => some entity
  | .skipped _ => before
  | .written _ _ _ entity => some entity

def notes (key : String) : Effect → List Note
  | .begun _ => []
  | .skipped w => [.warned w]
  | .written _ adoption true _ => [.adopted adoption]
  | .written place adoption false _ => [.unmatched place key, .adopted adoption]

end Effect

structure Assembler where
  registry : Registry
  mode : Mode
  adopter : Adopter

namespace Assembler

/-- One fragment at its position in the list. -/
def step (a : Assembler) (kind : EntityKind) (d : Descriptor) (position : Nat)
    (entity : Option Value) (raw : Value) : Reported (Option Value) :=
  match Fragment.parse raw with
  | .error fault => .fail (.invalidFragment fault)
  | .ok f =>
    match d.rule? f.key with
    | none => ⟨[.warned (.unsupported raw)], .ok entity⟩
    | some rule =>
      let note := Note.placing kind f.key position
      match place a.mode a.adopter entity rule f raw with
      | .error e => ⟨[note], .error e⟩
      | .ok effect => ⟨note :: effect.notes f.key, .ok (effect.entity entity)⟩

/-- Fragments in order, from a position and an entity on. -/
def run (a : Assembler) (kind : EntityKind) (d : Descriptor) (position : Nat)
    (entity : Option Value) : List Value → Reported (Option Value)
  | [] => .pure entity
  | raw :: rest =>
    (a.step kind d position entity raw).andThen fun entity =>
      a.run kind d (position + 1) entity rest

/-- A run may be cut anywhere. -/
theorem run_append (a : Assembler) (kind : EntityKind) (d : Descriptor) (position : Nat)
    (entity : Option Value) (xs ys : List Value) :
    a.run kind d position entity (xs ++ ys)
      = (a.run kind d position entity xs).andThen fun entity =>
          a.run kind d (position + xs.length) entity ys := by
  induction xs generalizing position entity with
  | nil => rfl
  | cons raw xs ih =>
    simp only [List.cons_append, run, Noted.andThen_assoc, List.length_cons, ih,
      Nat.add_right_comm, Nat.add_assoc]

/-- The end of a run: without a root there is no entity, which strict mode refuses. -/
def finish (a : Assembler) (kind : EntityKind) (r : Reported (Option Value)) :
    Reported (Option Value) :=
  match r.result with
  | .ok none =>
    match a.mode with
    | .strict => ⟨r.notes, .error .missingRoot⟩
    | .lenient => ⟨r.notes ++ [.warned (.noRoot kind)], .ok none⟩
  | _ => r

def assemble (a : Assembler) (kind : EntityKind) (fragments : List Value) :
    Reported (Option Value) :=
  if fragments.isEmpty then .pure none
  else
    match a.registry.descriptor? kind with
    | none => .fail (.unsupportedKind kind.name)
    | some d => a.finish kind (a.run kind d 0 none fragments)

/-- Absent fragments are like an empty list of them. -/
def assembleOptional (a : Assembler) (kind : EntityKind) (fragments : Option (List Value)) :
    Reported (Option Value) :=
  a.assemble kind (fragments.getD [])

/-- The kind is given by either of its names. -/
def assembleNamed (a : Assembler) (name : String) (fragments : List Value) :
    Reported (Option Value) :=
  if fragments.isEmpty then .pure none
  else
    match EntityKind.ofName? name with
    | none => .fail (.unsupportedKind name)
    | some kind => a.assemble kind fragments

end Assembler

end CatalogAssembly
