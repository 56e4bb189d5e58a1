import CatalogAssembly.Json.Literal
import CatalogAssembly.Text.Hex

/-!
# Reading JSON

`Value.parse?` accepts one JSON value between blanks (space, tab, line feed and
carriage return) and nothing else: no comments, no trailing commas, no controls
inside strings, no half of a surrogate pair, and at most `nestingLimit` arrays
and objects inside each other.
-/
namespace CatalogAssembly.Json

open Text (hexNumber?)

def nestingLimit : Nat := 127

def isJsonBlank (c : Char) : Bool := c = ' ' || c = '\t' || c = '\n' || c = '\r'

def skipBlanks (cs : List Char) : List Char := cs.dropWhile isJsonBlank

/-- The characters of short escapes. -/
def shortEscape? (c : Char) : Option Char :=
  match c with
  | '"' => some '"'
  | '\\' => some '\\'
  | '/' => some '/'
  | 'b' => some '\x08'
  | 'f' => some '\x0c'
  | 'n' => some '\n'
  | 'r' => some '\r'
  | 't' => some '\t'
  | _ => none

/-- One character written as an escape, the backslash being read already. -/
def readEscape (cs : List Char) : Option (Char × List Char) :=
  match cs with
  | 'u' :: a :: b :: c :: d :: rest => do
    let unit ← hexNumber? [a, b, c, d]
    if unit < 0xD800 || 0xDFFF < unit then some (Char.ofNat unit, rest)
    else if 0xDC00 ≤ unit then none
    else
      match rest with
      | '\\' :: 'u' :: e :: f :: g :: h :: rest =>
        let low ← hexNumber? [e, f, g, h]
        if 0xDC00 ≤ low && low ≤ 0xDFFF then
          some (Char.ofNat (0x10000 + (unit - 0xD800) * 0x400 + (low - 0xDC00)), rest)
        else none
      | _ => none
  | c :: rest => (shortEscape? c).map (·, rest)
  | [] => none

/-- The rest of a string up to its closing quote; `done` holds the characters
before, the last one first. -/
def readStringTail (done : List Char) : Nat → List Char → Option (String × List Char)
  | 0, _ => none
  | fuel + 1, cs =>
    match cs with
    | [] => none
    | '"' :: rest => some (String.ofList done.reverse, rest)
    | '\\' :: rest =>
      match readEscape rest with
      | some (c, rest) => readStringTail (c :: done) fuel rest
      | none => none
    | c :: rest => if c.toNat < 32 then none else readStringTail (c :: done) fuel rest

def readString (cs : List Char) : Option (String × List Char) :=
  readStringTail [] (cs.length + 1) cs

def readWord (word : String) (v : Value) (cs : List Char) : Option (Value × List Char) :=
  if word.toList.isPrefixOf cs then some (v, cs.drop word.length) else none

mutual

/-- One value; `room` is the number of levels that may still be opened. -/
def readValue (room : Nat) : Nat → List Char → Option (Value × List Char)
  | 0, _ => none
  | fuel + 1, cs =>
    match skipBlanks cs with
    | '"' :: rest => (readString rest).map fun (s, rest) => (.string s, rest)
    | '[' :: rest =>
      if room = 0 then none
      else
        match skipBlanks rest with
        | ']' :: rest => some (.array [], rest)
        | rest => readItems (room - 1) [] fuel rest
    | '\x7b' :: rest =>
      if room = 0 then none
      else
        match skipBlanks rest with
        | '\x7d' :: rest => some (.object [], rest)
        | rest => readFields (room - 1) [] fuel rest
    | 'n' :: rest => readWord "null" .null ('n' :: rest)
    | 't' :: rest => readWord "true" (.bool true) ('t' :: rest)
    | 'f' :: rest => readWord "false" (.bool false) ('f' :: rest)
    | cs => (readNumber cs).map fun (n, rest) => (.number n, rest)

def readItems (room : Nat) (done : List Value) : Nat → List Char → Option (Value × List Char)
  | 0, _ => none
  | fuel + 1, cs =>
    match readValue room fuel cs with
    | none => none
    | some (v, rest) =>
      match skipBlanks rest with
      | ',' :: rest => readItems room (v :: done) fuel rest
      | ']' :: rest => some (.array (v :: done).reverse, rest)
      | _ => none

def readFields (room : Nat) (done : List (String × Value)) :
    Nat → List Char → Option (Value × List Char)
  | 0, _ => none
  | fuel + 1, cs =>
    match skipBlanks cs with
    | '"' :: rest =>
      match readString rest with
      | none => none
      | some (name, rest) =>
        match skipBlanks rest with
        | ':' :: rest =>
          match readValue room fuel rest with
          | none => none
          | some (v, rest) =>
            let fields := insertField name v done
            match skipBlanks rest with
            | ',' :: rest => readFields room fields fuel rest
            | '\x7d' :: rest => some (.object fields, rest)
            | _ => none
        | _ => none
    | _ => none

end

/-- A character is met by two calls at most, by the reader of a list and by that of an item. -/
def Value.parse? (s : String) : Option Value :=
  let cs := s.toList
  match readValue nestingLimit (2 * cs.length + 2) cs with
  | some (v, rest) => if (skipBlanks rest).isEmpty then some v else none
  | none => none

end CatalogAssembly.Json
