import CatalogAssembly.Identity
import CatalogAssembly.Path.Basic
import CatalogAssembly.Text.Quoted

/-!
# Rules of placement

A rule says where fragments of one kind go in their entity: a root fragment is
the entity, a direct one replaces what waits at a path, and an indexed one does
so inside the first element of a collection that its matcher accepts.
-/
namespace CatalogAssembly

open Json (Value)

/-- Decides whether a payload belongs to an element of a collection. -/
inductive Matcher where
  | fieldEquals (dataField itemField : String)
  | custom (holds : Value → Value → Bool)

namespace Matcher

/-- Fields are compared as identifiers; an absent or null field of the payload
and an element that is no object never match. -/
def accepts (m : Matcher) (payload element : Value) : Bool :=
  match m with
  | .fieldEquals dataField itemField =>
    matchingIds (Value.present? (payload.field? dataField)) (element.field? itemField)
  | .custom holds => holds payload element

/-- A description of the matcher; of a custom one nothing is known. -/
def describe : Matcher → String
  | .fieldEquals dataField itemField =>
    "FieldEquals \x7b data_field: " ++ Text.quoted dataField ++ ", item_field: "
      ++ Text.quoted itemField ++ " \x7d"
  | .custom _ => "Custom(..)"

end Matcher

inductive Rule where
  | root
  | direct (path : Path)
  | indexed (parent path : Path) (matcher : Matcher)

namespace Rule

def isRoot : Rule → Bool
  | .root => true
  | _ => false

/-- The path by which a rule enters the entity. -/
def access? : Rule → Option Path
  | .root => none
  | .direct path => some path
  | .indexed parent _ _ => some parent

end Rule

end CatalogAssembly
