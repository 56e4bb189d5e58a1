/-!
# Hexadecimal digits

Values are read in both cases and written in the lower one.
-/
namespace CatalogAssembly.Text

def hexValue? (c : Char) : Option Nat :=
  if c.isDigit then some (c.toNat - '0'.toNat)
  else if 'a' ≤ c && c ≤ 'f' then some (c.toNat - 'a'.toNat + 10)
  else if 'A' ≤ c && c ≤ 'F' then some (c.toNat - 'A'.toNat + 10)
  else none

def hexNumber? (cs : List Char) : Option Nat :=
  cs.foldlM (fun n c => (hexValue? c).map (16 * n + ·)) 0

def hexDigits (n : Nat) : List Char := Nat.toDigits 16 n

/-- At least four digits, the missing ones filled by zeros. -/
def hex4 (n : Nat) : List Char :=
  List.replicate (4 - (hexDigits n).length) '0' ++ hexDigits n

end CatalogAssembly.Text
