import CatalogAssembly.Fragment
import CatalogAssembly.Json.Printer
import CatalogAssembly.Path.Text

/-!
# Why an entity cannot be assembled
-/
namespace CatalogAssembly

open Json (Value)

def FragmentFault.message : FragmentFault → String
  | .notAnObject found => "expected an object, found " ++ found.compact
  | .noKey => "fragment has no key"
  | .manyKeys count => "fragment has " ++ toString count ++ " keys, expected exactly one"

inductive AssemblyError where
  | unsupportedKind (name : String)
  | invalidFragment (fault : FragmentFault)
  | duplicateRoot (key : String)
  | parentNotFound (parent : Path)
  | expectedCollection (parent : Path)
  | matchNotFound (parent : Path)
  | identityMismatch (expected found : Value)
  | placeholderNotFound (place : Path) (id : Value)
  | missingRoot

def AssemblyError.message : AssemblyError → String
  | .unsupportedKind name => "Unsupported entity kind: \"" ++ name ++ "\""
  | .invalidFragment fault => "Invalid fragment: " ++ fault.message
  | .duplicateRoot key => "Entity already parsed, duplicate root fragment \"" ++ key ++ "\""
  | .parentNotFound parent => "Unable to find parent: " ++ parent.text
  | .expectedCollection parent =>
    "Unable to find match, expected an array at \"" ++ parent.text ++ "\""
  | .matchNotFound parent => "Unable to find match in \"" ++ parent.text ++ "\""
  | .identityMismatch expected found =>
    "Invalid item (expected " ++ expected.compact ++ ", found " ++ found.compact ++ ")"
  | .placeholderNotFound place id =>
    "No placeholder for " ++ id.compact ++ " at \"" ++ place.text ++ "\""
  | .missingRoot => "No root fragment found"

end CatalogAssembly
