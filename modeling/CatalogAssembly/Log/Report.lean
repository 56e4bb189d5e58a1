import CatalogAssembly.Assembly.Run
import CatalogAssembly.Log.Event

/-!
# The log of an assembly
-/
namespace CatalogAssembly

open Log (Event Field plain)

def Warning.event (w : Warning) : Event :=
  ⟨.warn, .diagnostics, w.message, [plain "context" w.context.compact]⟩

/-- Adoptions are not logged. -/
def Note.event? : Note → Option Event
  | .placing kind key position =>
    some ⟨.debug, .assembly, "Merging fragment",
      [plain "entity" kind.name, ⟨"fragment", key, true⟩, plain "position" (toString position)]⟩
  | .unmatched place key =>
    some ⟨.debug, .assembly, "No placeholder matched, collection unchanged",
      [plain "path" place.text, ⟨"fragment", key, true⟩]⟩
  | .adopted _ => none
  | .warned w => some w.event

def Reported.events {α : Type} (r : Reported α) : List Event := r.notes.filterMap Note.event?

def Mode.label : Mode → String
  | .lenient => "Lenient"
  | .strict => "Strict"

/-- The event of a schema file that was read. -/
def Registry.loadedEvent (r : Registry) (path : String) : Event :=
  ⟨.info, .schema, "Loaded entity schema",
    [plain "path" path, plain "entities" (toString r.kinds.length)]⟩

end CatalogAssembly
