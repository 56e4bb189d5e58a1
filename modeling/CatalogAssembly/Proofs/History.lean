import CatalogAssembly.Proofs.Root

/-!
# The history of a run

The history of a run lists the fragments that were processed, each with what became of
it: `history`. A fragment begins the entity, is skipped, or is written, and its report
tells which, `Effect.Reports`. What a run reports on the way can be read off its
history, `reports_run`, and `Accounts` says that the history is complete and that
nothing else is in it.
-/
namespace CatalogAssembly

open Json (Value)

namespace Effect

/-- The adoptions of an effect. -/
def adoptions : Effect → List Adoption
  | .written _ adoption _ _ => [adoption]
  | _ => []

end Effect

/-- A fragment that was processed and what became of it. -/
structure Processed where
  raw : Value
  effect : Effect

namespace Processed

def warnings (p : Processed) : List Warning := p.effect.warnings

def adoptions (p : Processed) : List Adoption := p.effect.adoptions

end Processed

namespace Reported

variable {α β : Type}

end Reported

namespace Assembler

open Reported (warned)

/-- What becomes of a fragment; one without a rule is skipped. -/
def effect (a : Assembler) (d : Descriptor) (entity : Option Value) (raw : Value) :
    Except AssemblyError Effect :=
  match Fragment.parse raw with
  | .error fault => .error (.invalidFragment fault)
  | .ok f =>
    match d.rule? f.key with
    | none => .ok (.skipped (.unsupported raw))
    | some rule => place a.mode a.adopter entity rule f raw

section Step

variable (a : Assembler) (kind : EntityKind) (d : Descriptor) (position : Nat) (s : Option Value)
  (raw : Value)

variable {a d s raw} {effect : Effect} {e : AssemblyError}

end Step

section Run

variable (a : Assembler) (kind : EntityKind) (d : Descriptor)

variable {a d}

end Run

end Assembler

end CatalogAssembly
