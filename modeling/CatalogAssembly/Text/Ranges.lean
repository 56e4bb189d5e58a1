/-!
# Sets of characters given by ranges of code points

A character class of the Unicode standard is a table of inclusive ranges. The
tables themselves are in the modules named for the properties.
-/
namespace CatalogAssembly.Text

/-- A list of inclusive ranges of code points. -/
abbrev Ranges := List (Nat × Nat)

def Ranges.contains (table : Ranges) (c : Char) : Bool :=
  table.any fun r => r.1 ≤ c.toNat && c.toNat ≤ r.2

end CatalogAssembly.Text
