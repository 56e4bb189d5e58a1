/-!
# TOML documents as values

Numbers other than integers and points in time are kept as they were written,
since no setting is one. A record may be written as a table of its fields or as
an array of them in order; a point in time counts as a table with one field of
no record.
-/
namespace CatalogAssembly.Toml

inductive Value where
  | string (s : String)
  | integer (n : Int)
  | float (text : String)
  | bool (b : Bool)
  | time (text : String)
  | array (items : List Value)
  | table (entries : List (String × Value))
  deriving Repr, Inhabited

/-- The fields that are given, by name. -/
abbrev Fields := List (String × Value)

namespace Value

/-- The given fields of a record. A closed record has no fields of other names. -/
def fields? (names : List String) (closed : Bool) : Value → Option Fields
  | .table entries =>
    if closed && entries.any (fun e => !names.contains e.1) then none else some entries
  | .array items => some (names.zip items)
  | .time _ => if closed then none else some []
  | _ => none

def string? : Value → Option String
  | .string s => some s
  | _ => none

def bool? : Value → Option Bool
  | .bool b => some b
  | _ => none

def table? : Value → Option (List (String × Value))
  | .table entries => some entries
  | _ => none

def isEmptyCollection : Value → Bool
  | .array items => items.isEmpty
  | .table entries => entries.isEmpty
  | _ => false

end Value

/-- A field that may be left out but not be something else. -/
def Fields.optional {α : Type} (fields : Fields) (name : String) (read : Value → Option α) :
    Option (Option α) :=
  match fields.lookup name with
  | none => some none
  | some v => (read v).map some

def Fields.withDefault {α : Type} (fields : Fields) (name : String) (default : α)
    (read : Value → Option α) : Option α :=
  match fields.lookup name with
  | none => some default
  | some v => read v

def Fields.required {α : Type} (fields : Fields) (name : String) (read : Value → Option α) :
    Option α :=
  (fields.lookup name).bind read

end CatalogAssembly.Toml
