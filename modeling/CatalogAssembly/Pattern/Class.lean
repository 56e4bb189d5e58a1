import CatalogAssembly.Pattern.Piece

/-!
# Classes of characters

A class stands in square brackets and holds characters, ranges, named classes and
further classes; the operators `&&`, `--` and `~~` join what is left of them with
what follows. Dashes at the beginning stand for themselves, and so does a closing
bracket that comes first.
-/
namespace CatalogAssembly.Pattern

/-- A class that is not closed yet. -/
structure OpenClass where
  /-- The height of all that is left of the last operator. -/
  left : Option Nat := none
  /-- The heights of the items since then. -/
  items : List Nat := []
  deriving DecidableEq, Repr

namespace OpenClass

def add (k : OpenClass) (height : Nat) : OpenClass := { k with items := height :: k.items }

def height (k : OpenClass) : Nat :=
  match k.left with
  | none => joinedHeight k.items
  | some left => max left (joinedHeight k.items) + 1

/-- The class behind one more operator. -/
def operate (k : OpenClass) : OpenClass := ⟨some k.height, []⟩

end OpenClass

def classNames : List String :=
  ["alnum", "alpha", "ascii", "blank", "cntrl", "digit", "graph", "lower", "print", "punct",
    "space", "upper", "word", "xdigit"]

/-- Whether a class between colons is negated, and what follows it: `:^alpha:]` is
read from behind its first bracket. -/
def readNamedClass : List Char → Option (Bool × List Char)
  | ':' :: cs =>
    let (negated, cs) := match cs with
      | '^' :: rest => (true, rest)
      | rest => (false, rest)
    match cs.dropWhile (· ≠ ':') with
    | ':' :: ']' :: rest =>
      if classNames.contains (String.ofList (cs.takeWhile (· ≠ ':'))) then some (negated, rest)
      else none
    | _ => none
  | _ => none

/-- A named class of characters cannot ignore case, one of bytes cannot be negated. -/
def fitsNamed (m : Modes) (negated : Bool) : Bool :=
  if m.isUnicode then !m.ignoresCase else !negated

/-- What follows a character, an escape or a range of characters. A dash makes a
range unless the class ends or an operator stands behind it. -/
def readClassItem (m : Modes) (cs : List Char) : Option (List Char) := do
  let (first, rest) ← readPlain m cs
  let rest := m.skip rest
  let isRange := rest.head? == some '-' &&
    m.peek? rest.tail != some ']' && m.peek? rest.tail != some '-'
  if !first.fitsClass m then none
  else if !isRange then some rest
  else
    let (last, rest) ← readPlain m (m.skip rest.tail)
    let low ← first.char?
    let high ← last.char?
    if last.fitsClass m && low.toNat ≤ high.toNat then some rest else none

/-- What follows the sign of negation, which a class of bytes cannot have. -/
def readNegation (m : Modes) (cs : List Char) : Option (List Char) :=
  match m.skip cs with
  | '^' :: rest => if m.isUnicode then some rest else none
  | rest => some rest

/-- Reads a class up to its closing bracket and gives its height. `isLeading` holds
up to the first item that is no dash. -/
def readClassFrom (m : Modes) (isLeading : Bool) (k : OpenClass) :
    Nat → List Char → Option (Nat × List Char)
  | 0, _ => none
  | fuel + 1, cs =>
    match isLeading, m.skip cs with
    | _, [] => none
    | true, '-' :: rest =>
      if (Piece.literal '-').fitsClass m then readClassFrom m true (k.add 0) fuel rest else none
    | isLeading, ']' :: rest =>
      if isLeading && k.items.isEmpty then
        if (Piece.literal ']').fitsClass m then readClassFrom m false (k.add 0) fuel rest else none
      else some (k.height + 1, rest)
    | _, '[' :: rest =>
      match readNamedClass rest with
      | some (negated, rest) =>
        if fitsNamed m negated then readClassFrom m false (k.add 0) fuel rest else none
      | none => do
        let rest ← readNegation m rest
        let (height, rest) ← readClassFrom m true {} fuel rest
        readClassFrom m false (k.add height) fuel rest
    | _, '&' :: '&' :: rest => readClassFrom m false k.operate fuel rest
    | _, '-' :: '-' :: rest => readClassFrom m false k.operate fuel rest
    | _, '~' :: '~' :: rest => readClassFrom m false k.operate fuel rest
    | _, cs => (readClassItem m cs).bind (readClassFrom m false (k.add 0) fuel)

/-- The height of a class that begins behind an opening bracket. -/
def readClass (m : Modes) (cs : List Char) : Option (Nat × List Char) :=
  (readNegation m cs).bind (readClassFrom m true {} (cs.length + 1))

end CatalogAssembly.Pattern
