import CatalogAssembly.Text.Digits
import CatalogAssembly.Text.Hex
import CatalogAssembly.Toml.Value

/-!
# Strings, numbers and points in time in TOML

Each reader takes the rest of a document and gives a value with what follows it.
A number or a time ends where its form ends; whether something may follow there
is for the reader of the line to say.
-/
namespace CatalogAssembly.Toml

open Text (digitValue natOfDigits hexNumber?)

def isBlank (c : Char) : Bool := c = ' ' || c = '\t'

def skipBlanks (cs : List Char) : List Char := cs.dropWhile isBlank

/-- Characters of a comment: everything but the controls, the tab being allowed. -/
def isCommentChar (c : Char) : Bool := c = '\t' || (32 ≤ c.toNat && c.toNat ≠ 127)

/-- What follows a line end, which is a line feed with or without a carriage return. -/
def afterNewline? : List Char → Option (List Char)
  | '\n' :: rest => some rest
  | '\r' :: '\n' :: rest => some rest
  | _ => none

def skipBlankLines : List Char → List Char
  | '\r' :: '\n' :: rest => skipBlankLines rest
  | c :: rest => if isBlank c || c = '\n' then skipBlankLines rest else c :: rest
  | [] => []

/-! ## Strings -/

/-- The scalar value with these hexadecimal digits. -/
def scalarOfHex? (digits : List Char) : Option Char := do
  let n ← hexNumber? digits
  if n.isValidChar then some (Char.ofNat n) else none

/-- One character written as an escape, the backslash being read already. -/
def readEscape (cs : List Char) : Option (Char × List Char) :=
  match cs with
  | 'b' :: rest => some ('\x08', rest)
  | 't' :: rest => some ('\t', rest)
  | 'n' :: rest => some ('\n', rest)
  | 'f' :: rest => some ('\x0c', rest)
  | 'r' :: rest => some ('\r', rest)
  | '"' :: rest => some ('"', rest)
  | '\\' :: rest => some ('\\', rest)
  | 'u' :: rest => if rest.length < 4 then none else (scalarOfHex? (rest.take 4)).map (·, rest.drop 4)
  | 'U' :: rest => if rest.length < 8 then none else (scalarOfHex? (rest.take 8)).map (·, rest.drop 8)
  | _ => none

/-- What follows a backslash at the end of a line, with the blanks of the next lines left out. -/
def afterLineJoin? (cs : List Char) : Option (List Char) :=
  (afterNewline? (skipBlanks cs)).map skipBlankLines

/-- The rest of a string between single double quotes. -/
def readBasicTail (done : List Char) : Nat → List Char → Option (String × List Char)
  | 0, _ => none
  | fuel + 1, cs =>
    match cs with
    | [] => none
    | '"' :: rest => some (String.ofList done.reverse, rest)
    | '\\' :: rest =>
      match readEscape rest with
      | some (c, rest) => readBasicTail (c :: done) fuel rest
      | none => none
    | c :: rest => if isCommentChar c then readBasicTail (c :: done) fuel rest else none

/-- The rest of a string between triple quotes. Up to two quotes may stand before
the closing three, and elsewhere inside. -/
def readLongTail (quote : Char) (escapes : Bool) (done : List Char) :
    Nat → List Char → Option (String × List Char)
  | 0, _ => none
  | fuel + 1, cs =>
    let run := (cs.takeWhile (· = quote)).length
    if 3 ≤ run then
      let inside := min (run - 3) 2
      some (String.ofList (done.reverse ++ List.replicate inside quote), cs.drop (inside + 3))
    else
      match cs with
      | [] => none
      | '\r' :: '\n' :: rest => readLongTail quote escapes ('\n' :: done) fuel rest
      | '\n' :: rest => readLongTail quote escapes ('\n' :: done) fuel rest
      | '\\' :: rest =>
        if escapes then
          match afterLineJoin? rest with
          | some rest => readLongTail quote escapes done fuel rest
          | none =>
            match readEscape rest with
            | some (c, rest) => readLongTail quote escapes (c :: done) fuel rest
            | none => none
        else readLongTail quote escapes ('\\' :: done) fuel rest
      | c :: rest =>
        if isCommentChar c then readLongTail quote escapes (c :: done) fuel rest else none

def readLong (quote : Char) (escapes : Bool) (cs : List Char) : Option (String × List Char) :=
  readLongTail quote escapes [] (cs.length + 1) ((afterNewline? cs).getD cs)

/-- A string on one line between single quotes, the opening one being read already. -/
def readLiteral (cs : List Char) : Option (String × List Char) :=
  let isInside := fun c => isCommentChar c && c ≠ '\''
  match cs.dropWhile isInside with
  | '\'' :: rest => some (String.ofList (cs.takeWhile isInside), rest)
  | _ => none

def readLine (cs : List Char) : Option (String × List Char) :=
  match cs with
  | '"' :: rest => readBasicTail [] (rest.length + 1) rest
  | '\'' :: rest => readLiteral rest
  | _ => none

def readString (cs : List Char) : Option (String × List Char) :=
  match cs with
  | '"' :: '"' :: '"' :: rest => readLong '"' true rest
  | '\'' :: '\'' :: '\'' :: rest => readLong '\'' false rest
  | _ => readLine cs

/-! ## Points in time -/

/-- A number of exactly `count` digits within bounds. -/
def readFixed (count low high : Nat) (cs : List Char) : Option (Nat × List Char) :=
  let digits := cs.take count
  let n := natOfDigits digits
  if digits.length = count && digits.all Char.isDigit && low ≤ n && n ≤ high then
    some (n, cs.drop count)
  else none

def readChar (p : Char → Bool) : List Char → Option (List Char)
  | c :: rest => if p c then some rest else none
  | [] => none

def daysInMonth (year month : Nat) : Nat :=
  if month = 2 then
    if year % 4 = 0 && (year % 100 ≠ 0 || year % 400 = 0) then 29 else 28
  else if [4, 6, 9, 11].contains month then 30
  else 31

def afterDate? (cs : List Char) : Option (List Char) := do
  let (year, cs) ← readFixed 4 0 9999 cs
  let cs ← readChar (· = '-') cs
  let (month, cs) ← readFixed 2 1 12 cs
  let cs ← readChar (· = '-') cs
  let (_, cs) ← readFixed 2 1 (daysInMonth year month) cs
  some cs

def afterSecondFraction (cs : List Char) : List Char :=
  match cs with
  | '.' :: d :: rest => if d.isDigit then rest.dropWhile Char.isDigit else cs
  | _ => cs

/-- A second may be the sixtieth, which leap seconds need. -/
def afterTime? (cs : List Char) : Option (List Char) := do
  let (_, cs) ← readFixed 2 0 23 cs
  let cs ← readChar (· = ':') cs
  let (_, cs) ← readFixed 2 0 59 cs
  let cs ← readChar (· = ':') cs
  let (_, cs) ← readFixed 2 0 60 cs
  some (afterSecondFraction cs)

def afterZone? (cs : List Char) : Option (List Char) :=
  match cs with
  | [] => none
  | c :: rest =>
    if c = 'Z' || c = 'z' then some rest
    else if c = '+' || c = '-' then do
      let (_, cs) ← readFixed 2 0 23 rest
      let cs ← readChar (· = ':') cs
      let (_, cs) ← readFixed 2 0 59 cs
      some cs
    else none

def afterDateTime? (cs : List Char) : Option (List Char) :=
  match afterDate? cs with
  | some date =>
    match (readChar (fun c => c = 'T' || c = 't' || c = ' ') date).bind afterTime? with
    | some time => some ((afterZone? time).getD time)
    | none => some date
  | none => afterTime? cs

/-! ## Numbers -/

/-- Digits after the first one; an underscore may stand between two of them. -/
def afterDigits (isDigit : Char → Bool) : List Char → List Char
  | '_' :: d :: rest => if isDigit d then afterDigits isDigit rest else '_' :: d :: rest
  | d :: rest => if isDigit d then afterDigits isDigit rest else d :: rest
  | [] => []

def afterDigits1? (isDigit : Char → Bool) : List Char → Option (List Char)
  | d :: rest => if isDigit d then some (afterDigits isDigit rest) else none
  | [] => none

def afterSign : List Char → List Char
  | '+' :: rest => rest
  | '-' :: rest => rest
  | cs => cs

/-- A decimal integer has a leading zero only when it is zero. -/
def afterInteger? (cs : List Char) : Option (List Char) :=
  match afterSign cs with
  | '0' :: rest => some rest
  | cs => afterDigits1? Char.isDigit cs

def afterFraction? (cs : List Char) : Option (List Char) :=
  (readChar (· = '.') cs).bind (afterDigits1? Char.isDigit)

def afterPower? (cs : List Char) : Option (List Char) :=
  (readChar (fun c => c = 'e' || c = 'E') cs).bind fun cs =>
    afterDigits1? Char.isDigit (afterSign cs)

def afterFloat? (cs : List Char) : Option (List Char) := do
  let whole ← afterInteger? cs
  match afterFraction? whole with
  | some rest => some ((afterPower? rest).getD rest)
  | none => afterPower? whole

/-- What was read between two states of the rest, without underscores. -/
def lexeme (cs rest : List Char) : List Char :=
  (cs.take (cs.length - rest.length)).filter (· ≠ '_')

/-- The least number that rounds beyond the greatest one of 64 bits. -/
def infinityBound : Nat := Nat.pow 2 1024 - Nat.pow 2 970

/-- A positive literal that no number of 64 bits is near to. -/
def isTooLarge (text : List Char) : Bool :=
  let (mantissa, power) := text.span fun c => c ≠ 'e' && c ≠ 'E'
  let whole := mantissa.takeWhile (· ≠ '.')
  let places := mantissa.drop (whole.length + 1)
  let digits := natOfDigits ((whole ++ places).filter Char.isDigit)
  let size : Int := natOfDigits (power.filter Char.isDigit)
  let exponent := (if power.contains '-' then -size else size) - places.length
  let magnitude := exponent + (Nat.toDigits 10 digits).length
  if digits = 0 || text.head? = some '-' || magnitude < 300 then false
  else if 320 < magnitude then true
  else if 0 ≤ exponent then infinityBound ≤ digits * Nat.pow 10 exponent.toNat
  else infinityBound * Nat.pow 10 (-exponent).toNat ≤ digits

def integer? (negative : Bool) (n : Nat) : Option Value :=
  if negative && n ≤ Nat.pow 2 63 then some (.integer (-n))
  else if !negative && n < Nat.pow 2 63 then some (.integer n)
  else none

def decimalInteger? (text : List Char) : Option Value :=
  integer? (text.head? = some '-') (natOfDigits (text.filter Char.isDigit))

def isHexDigit (c : Char) : Bool := (Text.hexValue? c).isSome

/-- An integer in base 2, 8 or 16, its mark being read already. -/
def readBased (bits : Nat) (isDigit : Char → Bool) (cs : List Char) :
    Option (Value × List Char) := do
  let rest ← afterDigits1? isDigit cs
  let n := (lexeme cs rest).foldl (fun n c => n * Nat.pow 2 bits + (Text.hexValue? c).getD 0) 0
  let v ← integer? false n
  some (v, rest)

def afterWord? (word : String) (cs : List Char) : Option (List Char) :=
  if word.toList.isPrefixOf cs then some (cs.drop word.length) else none

def readSpecialFloat (cs : List Char) : Option (Value × List Char) := do
  let rest ← (afterWord? "inf" (afterSign cs)).or (afterWord? "nan" (afterSign cs))
  some (.float (String.ofList (lexeme cs rest)), rest)

def readInteger (cs : List Char) : Option (Value × List Char) :=
  match cs with
  | '0' :: 'x' :: rest => readBased 4 isHexDigit rest
  | '0' :: 'o' :: rest => readBased 3 (fun c => '0' ≤ c && c ≤ '7') rest
  | '0' :: 'b' :: rest => readBased 1 (fun c => c = '0' || c = '1') rest
  | _ => do
    let rest ← afterInteger? cs
    some (← decimalInteger? (lexeme cs rest), rest)

/-- A time before a number, and a number with a fraction or a power before an integer. -/
def readNumber (cs : List Char) : Option (Value × List Char) :=
  match afterDateTime? cs with
  | some rest => some (.time (String.ofList (lexeme cs rest)), rest)
  | none =>
    match afterFloat? cs with
    | some rest =>
      let text := lexeme cs rest
      if isTooLarge text then none else some (.float (String.ofList text), rest)
    | none => (readSpecialFloat cs).or (readInteger cs)

end CatalogAssembly.Toml
