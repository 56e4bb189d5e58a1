import CatalogAssembly.Toml.Scalar
import CatalogAssembly.Toml.Tree

/-!
# Reading TOML

`parse?` reads a document of version 1.0 of the format, line by line: blanks and
comments, keys with values, and the headers of tables and of arrays of tables.
A mark at the start that gives the byte order is skipped. Arrays may go over
several lines and may end in a comma; inline tables may do neither. Keys have
fewer than `depthLimit` parts, and values are nested less deeply than that.
-/
namespace CatalogAssembly.Toml

def depthLimit : Nat := 80

/-- What follows the blanks and the comment at the end of a line and the line end. -/
def afterLine? (cs : List Char) : Option (List Char) :=
  let cs := match skipBlanks cs with
    | '#' :: rest => rest.dropWhile isCommentChar
    | rest => rest
  if cs.isEmpty then some [] else afterNewline? cs

/-- Skips blanks, comments and line ends inside an array. -/
def skipLines : Nat → List Char → List Char
  | 0, cs => cs
  | fuel + 1, cs =>
    match skipBlanks cs with
    | '#' :: rest =>
      match afterNewline? (rest.dropWhile isCommentChar) with
      | some rest => skipLines fuel rest
      | none => '#' :: rest
    | rest =>
      match afterNewline? rest with
      | some rest => skipLines fuel rest
      | none => rest

def isBareKeyChar (c : Char) : Bool := c.isAlphanum || c = '-' || c = '_'

def readKeyPart (cs : List Char) : Option (String × List Char) :=
  match cs with
  | '"' :: _ => readLine cs
  | '\'' :: _ => readLine cs
  | _ =>
    let word := cs.takeWhile isBareKeyChar
    if word.isEmpty then none else some (String.ofList word, cs.dropWhile isBareKeyChar)

/-- The parts of a dotted key, with blanks around each of them. -/
def readKeyParts : Nat → List Char → Option (List String × List Char)
  | 0, _ => none
  | fuel + 1, cs => do
    let (part, rest) ← readKeyPart (skipBlanks cs)
    match skipBlanks rest with
    | '.' :: rest => do
      let (parts, rest) ← readKeyParts fuel rest
      some (part :: parts, rest)
    | rest => some ([part], rest)

/-- A key as the path to its table and its last part. -/
structure Key where
  table : List String
  name : String

def readKey (cs : List Char) : Option (Key × List Char) := do
  let (parts, rest) ← readKeyParts (cs.length + 1) cs
  if depthLimit ≤ parts.length then none
  else some (⟨parts.dropLast, ← parts.getLast?⟩, rest)

mutual

/-- One value; `room` is the number of levels that may still be opened. -/
def readValue (room : Nat) : Nat → List Char → Option (Value × List Char)
  | 0, _ => none
  | fuel + 1, cs =>
    match cs with
    | [] => none
    | '[' :: rest => if room = 0 then none else readItems (room - 1) [] fuel rest
    | '\x7b' :: rest =>
      if room = 0 then none
      else
        match skipBlanks rest with
        | '\x7d' :: rest => some (.table [], rest)
        | _ => readEntries (room - 1) ⟨.header, []⟩ fuel rest
    | 't' :: _ => (afterWord? "true" cs).map (.bool true, ·)
    | 'f' :: _ => (afterWord? "false" cs).map (.bool false, ·)
    | c :: _ =>
      if c = '"' || c = '\'' then (readString cs).map fun (s, rest) => (.string s, rest)
      else readNumber cs

/-- The items of an array up to its closing bracket. -/
def readItems (room : Nat) (done : List Value) : Nat → List Char → Option (Value × List Char)
  | 0, _ => none
  | fuel + 1, cs =>
    match skipLines cs.length cs with
    | ']' :: rest => some (.array done.reverse, rest)
    | cs =>
      match readValue room fuel cs with
      | none => none
      | some (v, rest) =>
        match skipLines rest.length rest with
        | ',' :: rest => readItems room (v :: done) fuel rest
        | ']' :: rest => some (.array (v :: done).reverse, rest)
        | _ => none

/-- The entries of an inline table, of which there is at least one. -/
def readEntries (room : Nat) (t : Table) : Nat → List Char → Option (Value × List Char)
  | 0, _ => none
  | fuel + 1, cs =>
    match readKey cs with
    | some (key, '=' :: rest) =>
      match readValue room fuel (skipBlanks rest) with
      | none => none
      | some (v, rest) =>
        match t.assign key.table key.name v with
        | none => none
        | some t =>
          match skipBlanks rest with
          | ',' :: rest => readEntries room t fuel rest
          | '\x7d' :: rest => some ((Item.ofTable t).toValue, rest)
          | _ => none
    | _ => none

end

/-- The document so far, and the path of the section that is being read. -/
structure Section where
  root : Table
  path : List String

def Section.assign (s : Section) (key : Key) (v : Value) : Option Section := do
  let root ← s.root.update false (Table.assign key.table key.name v) s.path
  some { s with root := root }

/-- A key with its value up to the end of the line. -/
def readAssignment (s : Section) (cs : List Char) : Option (Section × List Char) := do
  let (key, rest) ← readKey cs
  let rest ← readChar (· = '=') rest
  let (v, rest) ← readValue (depthLimit - 1) (2 * rest.length + 2) (skipBlanks rest)
  let rest ← afterLine? rest
  some (← s.assign key v, rest)

/-- The header of a table or of one more table in an array. -/
def readHeader (s : Section) (cs : List Char) : Option (Section × List Char) :=
  match cs with
  | '[' :: '[' :: rest => do
    let (key, rest) ← readKey rest
    let rest ← afterWord? "]]" rest
    let rest ← afterLine? rest
    some (⟨← s.root.openElement key.table key.name, key.table ++ [key.name]⟩, rest)
  | '[' :: rest => do
    let (key, rest) ← readKey rest
    let rest ← readChar (· = ']') rest
    let rest ← afterLine? rest
    some (⟨← s.root.openTable key.table key.name, key.table ++ [key.name]⟩, rest)
  | _ => none

/-- Every line takes at least one character. -/
def readLines (s : Section) : Nat → List Char → Option Section
  | 0, _ => none
  | fuel + 1, cs =>
    match skipBlanks cs with
    | [] => some s
    | '[' :: rest =>
      match readHeader s ('[' :: rest) with
      | some (s, rest) => readLines s fuel rest
      | none => none
    | cs =>
      match afterLine? cs with
      | some rest => readLines s fuel rest
      | none =>
        match readAssignment s cs with
        | some (s, rest) => readLines s fuel rest
        | none => none

def skipByteOrderMark : List Char → List Char
  | '\ufeff' :: rest => rest
  | cs => cs

/-- The entries of a document's root table. -/
def parse? (text : String) : Option Value := do
  let cs := skipByteOrderMark text.toList
  let s ← readLines ⟨⟨.header, []⟩, []⟩ (cs.length + 1) cs
  some (Item.ofTable s.root).toValue

end CatalogAssembly.Toml
