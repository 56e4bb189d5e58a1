import CatalogAssembly.Json.Value
import CatalogAssembly.Binary64.Shortest
import CatalogAssembly.Text.Hex

/-!
# The text of a JSON value

One function writes both layouts: without a depth the text has no blanks, with a
depth every item and field has a line of its own, indented by two blanks for
each level, while an empty array or object stays on one line.

Strings escape only the quote, the backslash and the controls below the blank. A
64-bit number has the fewest digits that read back, with a point and at least
one digit after it between `1e-5` and `1e16`, and with a signed exponent
elsewhere.
-/
namespace CatalogAssembly.Json

open Binary64 (Decimal shortest)
open Text (hex4)

def escapedChar (c : Char) : List Char :=
  match c with
  | '"' => ['\\', '"']
  | '\\' => ['\\', '\\']
  | '\x08' => ['\\', 'b']
  | '\x0c' => ['\\', 'f']
  | '\n' => ['\\', 'n']
  | '\r' => ['\\', 'r']
  | '\t' => ['\\', 't']
  | c => if c.toNat < 32 then '\\' :: 'u' :: hex4 c.toNat else [c]

def stringText (s : String) : String :=
  String.ofList ('"' :: (s.toList.flatMap escapedChar ++ ['"']))

/-- The magnitudes that are written without an exponent. -/
structure PositionalRange where
  /-- The least power of ten among them. -/
  lowest : Int
  /-- The first power of ten beyond them. -/
  limit : Int

def positionalRange : PositionalRange := ⟨-5, 16⟩

def positionalText (digits : List Char) (exponent : Int) : List Char :=
  if 0 ≤ exponent then digits ++ List.replicate exponent.toNat '0' ++ ['.', '0']
  else
    let places := (-exponent).toNat
    if places < digits.length then
      digits.take (digits.length - places) ++ '.' :: digits.drop (digits.length - places)
    else '0' :: '.' :: (List.replicate (places - digits.length) '0' ++ digits)

def exponentText (digits : List Char) (power : Int) : List Char :=
  let mantissa :=
    match digits with
    | first :: second :: rest => first :: '.' :: second :: rest
    | short => short
  mantissa ++ 'e' :: (if power < 0 then '-' else '+') :: Nat.toDigits 10 power.natAbs

def decimalText (d : Decimal) : List Char :=
  let digits := Nat.toDigits 10 d.digits
  let power := d.exponent + digits.length - 1
  if d.digits = 0 || (positionalRange.lowest ≤ power && power < positionalRange.limit) then
    positionalText digits d.exponent
  else exponentText digits power

def realText (x : Binary64) : String :=
  let text := decimalText (shortest x.code)
  String.ofList (if x.negative then '-' :: text else text)

def Number.text : Number → String
  | .integer n => toString n
  | .real x => realText x

/-- A line break to the given depth, where there are lines. -/
def lineBreak : Option Nat → String
  | none => ""
  | some depth => "\n" ++ String.ofList (List.replicate (2 * depth) ' ')

/-- The name of a field up to its value, which a line sets off by a blank. -/
def fieldHead (depth : Option Nat) (name : String) : String :=
  stringText name ++ if depth.isSome then ": " else ":"

namespace Value

mutual

/-- The text of a value, laid out in lines from the given depth on. -/
def render (depth : Option Nat) : Value → String
  | .null => "null"
  | .bool b => if b then "true" else "false"
  | .number n => n.text
  | .string s => stringText s
  | .array [] => "[]"
  | .array (x :: xs) =>
    let inner := depth.map (· + 1)
    "[" ++ lineBreak inner ++ render inner x ++ renderItems inner xs ++ lineBreak depth ++ "]"
  | .object [] => "\x7b\x7d"
  | .object ((k, x) :: fs) =>
    let inner := depth.map (· + 1)
    "\x7b" ++ lineBreak inner ++ fieldHead depth k ++ render inner x ++ renderFields inner fs
      ++ lineBreak depth ++ "\x7d"

def renderItems (depth : Option Nat) : List Value → String
  | [] => ""
  | x :: xs => "," ++ lineBreak depth ++ render depth x ++ renderItems depth xs

def renderFields (depth : Option Nat) : List (String × Value) → String
  | [] => ""
  | (k, x) :: fs =>
    "," ++ lineBreak depth ++ fieldHead depth k ++ render depth x ++ renderFields depth fs

end

def compact (v : Value) : String := v.render none

def pretty (v : Value) : String := v.render (some 0)

end Value

end CatalogAssembly.Json
