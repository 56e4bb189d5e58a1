import CatalogAssembly.Text.Blank

/-!
# Patterns

A pattern describes texts by a regular expression: characters, classes of
characters, repetition, alternatives and groups. Nothing is matched here; the
modules of this folder decide which texts are patterns. They know no properties of
letters, so that ignoring case and the classes of digits, blanks and word
characters are there for bytes only, and what may not match whole characters is
refused.

A pattern has the height of its tree of groups, repetitions, classes, sequences
and alternatives, which is limited.
-/
namespace CatalogAssembly.Pattern

open Text (isBlank)

/-- The modes that decide what may be written. -/
structure Modes where
  ignoresCase : Bool := false
  /-- The pattern is about characters, not about bytes. -/
  isUnicode : Bool := true
  /-- Blanks and comments may stand between the parts. -/
  isSpaced : Bool := false
  deriving DecidableEq, Repr

/-- Skips blanks, and comments from a number sign to the end of the line. -/
def skipRemarks : (inComment : Bool) → List Char → List Char
  | _, [] => []
  | true, c :: cs => skipRemarks (c ≠ '\n') cs
  | false, c :: cs =>
    if c = '#' then skipRemarks true cs
    else if isBlank c then skipRemarks false cs
    else c :: cs

def Modes.skip (m : Modes) (cs : List Char) : List Char :=
  if m.isSpaced then skipRemarks false cs else cs

/-- The next character seen through blanks and through the mark of a comment, but
not through the comment. -/
def Modes.peek? (m : Modes) (cs : List Char) : Option Char :=
  if m.isSpaced then
    match cs.dropWhile isBlank with
    | '#' :: rest => (rest.dropWhile isBlank).head?
    | rest => rest.head?
  else cs.head?

/-- The height of parts taken together. One part alone stands for itself. -/
def joinedHeight : List Nat → Nat
  | [] => 0
  | [height] => height
  | heights => heights.foldl max 0 + 1

def heightLimit : Nat := 250

end CatalogAssembly.Pattern
