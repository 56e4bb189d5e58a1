import CatalogAssembly.Text.Hex
import CatalogAssembly.Text.Printable

/-!
# Quoted text

The quoted form stands between double quotes, so that any text can be told from
its surroundings: quotes, backslashes, tabs, line ends and the zero character
have short escapes, and every other character that does not stand alone is
written by its code point, `\u{301}`. All else, quotes of the other kind
included, is written as it is.
-/
namespace CatalogAssembly.Text

def quotedChar (c : Char) : List Char :=
  match c with
  | '"' => ['\\', '"']
  | '\\' => ['\\', '\\']
  | '\n' => ['\\', 'n']
  | '\r' => ['\\', 'r']
  | '\t' => ['\\', 't']
  | '\x00' => ['\\', '0']
  | c => if standsAlone c then [c] else ['\\', 'u', '{'] ++ hexDigits c.toNat ++ ['}']

def quoted (s : String) : String :=
  String.ofList ('"' :: (s.toList.flatMap quotedChar ++ ['"']))

end CatalogAssembly.Text
