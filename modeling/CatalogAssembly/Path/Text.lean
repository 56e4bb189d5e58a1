import CatalogAssembly.Path.Basic
import CatalogAssembly.Text.Blank
import CatalogAssembly.Text.Digits

/-!
# The text of a path

A path is written as parts between dots. A part of digits only is an index; any
other part is a name followed by indices in brackets, and the name may be left
out where an index follows. Printing uses brackets for every index, so that the
two spellings of an index have one printed form.
-/
namespace CatalogAssembly

open Text (natOfDigits allBlank)

inductive PathFault where
  | blank
  | emptySegment
  | unbalancedBracket (part : String)
  | invalidIndex (digits : String)
  | indexTooLarge (digits : String)
  deriving DecidableEq, Repr

def PathFault.message : PathFault → String
  | .blank => "path is empty"
  | .emptySegment => "empty segment"
  | .unbalancedBracket part => "unbalanced bracket in \"" ++ part ++ "\""
  | .invalidIndex digits => "invalid index \"" ++ digits ++ "\""
  | .indexTooLarge digits => "index out of range: " ++ digits

namespace Path

def indexLimit : Nat := Nat.pow 2 64

/-- The parts of a text between its dots, one more than there are dots. -/
def splitDots : List Char → List (List Char)
  | [] => [[]]
  | c :: cs =>
    if c = '.' then [] :: splitDots cs
    else
      match splitDots cs with
      | [] => [[c]]
      | part :: parts => (c :: part) :: parts

def readIndex (digits : List Char) : Except PathFault Step :=
  let n := natOfDigits digits
  if n < indexLimit then .ok (.index n) else .error (.indexTooLarge (String.ofList digits))

/-- The index between two brackets. -/
def readBracketed (digits : List Char) : Except PathFault Step :=
  if digits.isEmpty || !digits.all Char.isDigit then
    .error (.invalidIndex (String.ofList digits))
  else readIndex digits

/-- The bracketed indices at the end of a part; `inside` holds what was read since
an open bracket, the last character first. -/
def readGroups (part : List Char) (inside : Option (List Char)) :
    List Char → Except PathFault (List Step)
  | [] =>
    match inside with
    | none => .ok []
    | some _ => .error (.unbalancedBracket (String.ofList part))
  | c :: cs =>
    match inside with
    | none =>
      if c = '[' then readGroups part (some []) cs
      else .error (.unbalancedBracket (String.ofList part))
    | some digits =>
      if c = ']' then do
        let step ← readBracketed digits.reverse
        let steps ← readGroups part none cs
        .ok (step :: steps)
      else readGroups part (some (c :: digits)) cs

def readPart (part : List Char) : Except PathFault (List Step) :=
  if part.isEmpty then .error .emptySegment
  else if part.all Char.isDigit then do
    let step ← readIndex part
    .ok [step]
  else
    let name := part.takeWhile (· ≠ '[')
    if name.contains ']' then .error (.unbalancedBracket (String.ofList part))
    else do
      let steps ← readGroups part none (part.dropWhile (· ≠ '['))
      .ok (if name.isEmpty then steps else .key (String.ofList name) :: steps)

def readParts : List (List Char) → Except PathFault Path
  | [] => .ok []
  | part :: parts => do
    let steps ← readPart part
    let more ← readParts parts
    .ok (steps ++ more)

def parse (raw : String) : Except PathFault Path :=
  if allBlank raw then .error .blank else readParts (splitDots raw.toList)

def stepChars : Step → List Char
  | .key name => name.toList
  | .index n => '[' :: (Nat.toDigits 10 n ++ [']'])

/-- The steps after the first; a name is set off by a dot. -/
def tailChars : Path → List Char
  | [] => []
  | .key name :: p => '.' :: (stepChars (.key name) ++ tailChars p)
  | .index n :: p => stepChars (.index n) ++ tailChars p

def chars : Path → List Char
  | [] => []
  | s :: p => stepChars s ++ tailChars p

def text (p : Path) : String := String.ofList p.chars

end Path

end CatalogAssembly
