import CatalogAssembly.Pattern.Basic
import CatalogAssembly.Text.Hex

/-!
# Pieces of patterns

A piece is what a single character or an escape stands for. Which pieces may be
used depends on the modes: a pattern about characters cannot ignore case and has
no classes of digits or words, and one about bytes names ASCII characters only
where a byte would not be a whole character.
-/
namespace CatalogAssembly.Pattern

open Text (hexValue?)

inductive Piece where
  | literal (c : Char)
  /-- A character given by two hexadecimal digits, which may be meant as a byte. -/
  | coded (c : Char)
  | anyChar
  /-- Digits, blanks or word characters. -/
  | category (negated : Bool)
  /-- An end of a line or of the text. -/
  | edge
  | wordEdge
  deriving DecidableEq, Repr

namespace Piece

def char? : Piece → Option Char
  | literal c => some c
  | coded c => some c
  | _ => none

def isAscii (c : Char) : Bool := decide (c.toNat < 128)

/-- Whether a piece may stand in a sequence. -/
def fits (m : Modes) : Piece → Bool
  | literal _ => !(m.isUnicode && m.ignoresCase)
  | coded c => if m.isUnicode then !m.ignoresCase else isAscii c
  | anyChar => m.isUnicode
  | category negated => !m.isUnicode && !negated
  | edge => true
  | wordEdge => !m.isUnicode

/-- Whether a piece may be an item of a class. -/
def fitsClass (m : Modes) : Piece → Bool
  | literal c | coded c => if m.isUnicode then !m.ignoresCase else isAscii c
  | category negated => !m.isUnicode && !negated
  | anyChar | edge | wordEdge => false

end Piece

/-- The number given by so many hexadecimal digits after the digits of `code`. -/
def readCode (m : Modes) : Nat → Nat → List Char → Option (Nat × List Char)
  | 0, code, cs => some (code, cs)
  | count + 1, code, cs =>
    match m.skip cs with
    | [] => none
    | c :: rest => (hexValue? c).bind fun digit => readCode m count (16 * code + digit) rest

def readCodedChar (m : Modes) (count : Nat) (cs : List Char) : Option (Char × List Char) := do
  let (code, rest) ← readCode m count 0 cs
  if code.isValidChar then some (Char.ofNat code, rest) else none

/-- The letters that stand for control characters. -/
def controlEscapes : List (Char × Char) :=
  [('a', '\x07'), ('f', '\x0c'), ('n', '\n'), ('r', '\r'), ('t', '\t'), ('v', '\x0b')]

/-- What an escape stands for, from behind its backslash. Marks of ASCII stand for
themselves; letters and digits without a meaning are kept free. -/
def readEscape (m : Modes) : List Char → Option (Piece × List Char)
  | [] => none
  | c :: rest =>
    match c with
    | 'x' => (readCodedChar m 2 rest).map fun (c, rest) => (.coded c, rest)
    | 'u' => (readCodedChar m 4 rest).map fun (c, rest) => (.literal c, rest)
    | 'U' => (readCodedChar m 8 rest).map fun (c, rest) => (.literal c, rest)
    | 'd' | 's' | 'w' => some (.category false, rest)
    | 'D' | 'S' | 'W' => some (.category true, rest)
    | 'A' | 'z' => some (.edge, rest)
    | 'b' | 'B' | '<' | '>' => some (.wordEdge, rest)
    | _ =>
      match controlEscapes.lookup c with
      | some control => some (.literal control, rest)
      | none => if Piece.isAscii c && !c.isAlphanum then some (.literal c, rest) else none

/-- A character that stands for itself, or an escape. -/
def readPlain (m : Modes) : List Char → Option (Piece × List Char)
  | [] => none
  | '\\' :: rest => readEscape m rest
  | c :: rest => some (.literal c, rest)

/-- A piece of a sequence, where some marks have a meaning of their own. -/
def readPiece (m : Modes) (cs : List Char) : Option (Piece × List Char) :=
  match cs with
  | '.' :: rest => some (.anyChar, rest)
  | '^' :: rest => some (.edge, rest)
  | '$' :: rest => some (.edge, rest)
  | _ => readPlain m cs

end CatalogAssembly.Pattern
