import CatalogAssembly.Files
import CatalogAssembly.Kind
import CatalogAssembly.Path.Text

/-!
# What can be wrong with a schema
-/
namespace CatalogAssembly

/-- The shapes of rules that a schema document can miss. -/
inductive RuleFault where
  | rootTakesNothing
  | directNeedsPath
  | indexedNeedsAll
  deriving DecidableEq, Repr

def RuleFault.message : RuleFault → String
  | .rootTakesNothing => "root rule takes no path, parent or match"
  | .directNeedsPath => "direct rule needs a path and no parent or match"
  | .indexedNeedsAll => "indexed rule needs a parent, path and match"

inductive SchemaError where
  | invalidPath (text : String) (fault : PathFault)
  | duplicateFragment (kind : EntityKind) (fragment : String)
  | duplicateEntity (kind : EntityKind)
  | multipleRoots (kind : EntityKind)
  | unknownEntityKind (name : String)
  | invalidRule (fragment : String) (fault : RuleFault)
  | malformed
  | unreadable (fault : FileFault)
  deriving DecidableEq, Repr

namespace SchemaError

/-- The text of an error. The words of the reader of TOML, which would follow for a malformed
document, are left out. -/
def message : SchemaError → String
  | .invalidPath text fault => "Invalid path \"" ++ text ++ "\": " ++ fault.message
  | .duplicateFragment kind fragment =>
    "Duplicate fragment \"" ++ fragment ++ "\" for entity \"" ++ kind.name ++ "\""
  | .duplicateEntity kind => "Duplicate entity: " ++ kind.name
  | .multipleRoots kind => "Entity \"" ++ kind.name ++ "\" declares more than one root fragment"
  | .unknownEntityKind name => "Unknown entity kind: " ++ name
  | .invalidRule fragment fault => "Invalid rule for \"" ++ fragment ++ "\": " ++ fault.message
  | .malformed => "Parse error"
  | .unreadable fault => "IO error: " ++ fault.message

/-- The error and what it was caused by, outermost first. The error of the reader of TOML below
that of a malformed document is left out. -/
def chain (e : SchemaError) : List String :=
  match e with
  | .unreadable fault => [e.message, fault.message]
  | _ => [e.message]

end SchemaError

end CatalogAssembly
