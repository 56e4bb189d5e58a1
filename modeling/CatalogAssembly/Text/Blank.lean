import CatalogAssembly.Text.Ranges

/-!
# Blank characters

White space is the property of that name in the Unicode standard: the ASCII
blanks together with the next-line character, the no-break spaces, the fixed
width spaces and the two separators. A text is blank when it holds nothing else.
-/
namespace CatalogAssembly.Text

def blankRanges : Ranges :=
  [(9, 13), (32, 32), (133, 133), (160, 160), (5760, 5760), (8192, 8202), (8232, 8233),
    (8239, 8239), (8287, 8287), (12288, 12288)]

def isBlank (c : Char) : Bool := blankRanges.contains c

/-- A text without any character that is not white space. -/
def allBlank (s : String) : Bool := s.toList.all isBlank

/-- The characters between the leading and the trailing white space. -/
def trimBlank (cs : List Char) : List Char :=
  ((cs.dropWhile isBlank).reverse.dropWhile isBlank).reverse

end CatalogAssembly.Text
