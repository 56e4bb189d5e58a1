import CatalogAssembly.Json.Value
import CatalogAssembly.Text.Digits

/-!
# Number literals

An integer literal is kept exactly when it lies between `-2 ^ 63` and
`2 ^ 64 - 1`; the literal `-0` and every other literal is a binary number of 64
bits. That number is computed in three roundings at most: the digits are read as
one natural number below `2 ^ 64`, digits that no longer fit being dropped, this
number is rounded, the power of ten is rounded, and so is their product or
quotient. A result that is too large for the format is no number.
-/
namespace CatalogAssembly.Json

open Binary64 (codeOfNat mulCode divCode tenCode overflowCode)
open Text (digitValue natOfDigits spanDigits)

def significandLimit : Nat := Nat.pow 2 64

/-- Appends digits as long as the number stays below the limit; the second part
counts the digits that were appended. -/
def appendDigits (n : Nat) : List Char → Nat × Nat
  | [] => (n, 0)
  | c :: cs =>
    let next := 10 * n + digitValue c
    if next < significandLimit then
      let (m, taken) := appendDigits next cs
      (m, taken + 1)
    else (n, 0)

/-- The greatest power of ten in the format. -/
def maxPower : Nat := 308

/-- A power beyond the greatest one is divided out in two steps, which leaves
nothing of a number below `2 ^ 64` when it exceeds both. -/
def scaleDown (code power : Nat) : Nat :=
  if power ≤ maxPower then divCode code (tenCode power)
  else if power ≤ 2 * maxPower then
    divCode (divCode code (tenCode maxPower)) (tenCode (power - maxPower))
  else 0

def scaleUp? (code power : Nat) : Option Nat :=
  if code = 0 then some 0
  else if power ≤ maxPower then
    let product := mulCode code (tenCode power)
    if product < overflowCode then some product else none
  else none

/-- The code of `significand * 10 ^ power`. -/
def scaledCode? (significand : Nat) (power : Int) : Option Nat :=
  if 0 ≤ power then scaleUp? (codeOfNat significand) power.toNat
  else some (scaleDown (codeOfNat significand) (-power).toNat)

/-- A literal taken apart; an absent part differs from an empty one. -/
structure Literal where
  negative : Bool
  whole : List Char
  fraction : Option (List Char)
  power : Option Int

def Literal.isInteger (l : Literal) : Bool := l.fraction.isNone && l.power.isNone

def Literal.real? (l : Literal) : Option Binary64 :=
  let (whole, kept) := appendDigits 0 l.whole
  let (digits, places) := appendDigits whole (l.fraction.getD [])
  let power := ((l.whole.length - kept : Nat) : Int) - places + l.power.getD 0
  (scaledCode? digits power).map (⟨l.negative, ·⟩)

def Literal.number? (l : Literal) : Option Number :=
  let n := natOfDigits l.whole
  if l.isInteger && !l.negative && n < Nat.pow 2 64 then some (.integer n)
  else if l.isInteger && l.negative && n ≠ 0 && n ≤ Nat.pow 2 63 then some (.integer (-n))
  else l.real?.map .real

/-- The digits of the whole part: a zero alone, or digits without a leading zero. -/
def readWhole (cs : List Char) : Option (List Char × List Char) :=
  match spanDigits cs with
  | ([], _) => none
  | ('0' :: _ :: _, _) => none
  | split => some split

def readFraction (cs : List Char) : Option (Option (List Char) × List Char) :=
  match cs with
  | '.' :: rest =>
    match spanDigits rest with
    | ([], _) => none
    | (digits, rest) => some (some digits, rest)
  | _ => some (none, cs)

def readPowerDigits (negative : Bool) (cs : List Char) : Option (Option Int × List Char) :=
  match spanDigits cs with
  | ([], _) => none
  | (digits, rest) =>
    let n : Int := natOfDigits digits
    some (some (if negative then -n else n), rest)

def readPower (cs : List Char) : Option (Option Int × List Char) :=
  match cs with
  | e :: rest =>
    if e = 'e' || e = 'E' then
      match rest with
      | '+' :: rest => readPowerDigits false rest
      | '-' :: rest => readPowerDigits true rest
      | _ => readPowerDigits false rest
    else some (none, cs)
  | [] => some (none, cs)

def readLiteral (cs : List Char) : Option (Literal × List Char) := do
  let (negative, cs) := match cs with
    | '-' :: rest => (true, rest)
    | _ => (false, cs)
  let (whole, cs) ← readWhole cs
  let (fraction, cs) ← readFraction cs
  let (power, cs) ← readPower cs
  some (⟨negative, whole, fraction, power⟩, cs)

def readNumber (cs : List Char) : Option (Number × List Char) := do
  let (literal, rest) ← readLiteral cs
  some (← literal.number?, rest)

end CatalogAssembly.Json
