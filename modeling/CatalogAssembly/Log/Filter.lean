import CatalogAssembly.Log.Event
import CatalogAssembly.Pattern.Reader
import CatalogAssembly.Text.Alphanumeric
import CatalogAssembly.Text.Blank
import CatalogAssembly.Text.Digits

/-!
# Log filters

A filter is a list of directives between commas. A directive gives a level to
the targets that begin with a text, to events that have certain fields, or to
everything. Of the directives that fit an event the most specific one decides:
the one with the longest target, then the one with the most fields. An event
that none fits is not logged. Directives that name a span or the value of a field,
which is a number or a pattern, are understood and have no effect, since nothing is
logged inside a span.
-/
namespace CatalogAssembly.Log

open Pattern (isPattern)
open Text (isAlphanumeric isBlank natOfDigits spanDigits)

/-- A threshold below which events are logged; `none` logs nothing. -/
abbrev Threshold := Option Level

def Threshold.rank (t : Threshold) : Nat :=
  match t with
  | some level => level.rank
  | none => 0

structure Directive where
  target : Option String
  span : Option String
  fields : List String
  hasValue : Bool
  threshold : Threshold
  deriving DecidableEq, Repr

def asciiLower (s : String) : String := s.map Char.toLower

def thresholdNamed? (s : String) : Option Threshold :=
  match asciiLower s with
  | "off" => some none
  | "error" => some (some .error)
  | "warn" => some (some .warn)
  | "info" => some (some .info)
  | "debug" => some (some .debug)
  | "trace" => some (some .trace)
  | _ => none

/-- Levels are also numbered, from nothing to the most verbose one. -/
def thresholdNumbered? (s : String) : Option Threshold :=
  let digits := match s.toList with
    | '+' :: rest => rest
    | cs => cs
  if digits.isEmpty || !digits.all Char.isDigit then none
  else
    match natOfDigits digits with
    | 0 => some none
    | 1 => some (some .error)
    | 2 => some (some .warn)
    | 3 => some (some .info)
    | 4 => some (some .debug)
    | 5 => some (some .trace)
    | _ => none

/-- A numeral without its sign. -/
def unsigned : List Char → List Char
  | '+' :: rest => rest
  | '-' :: rest => rest
  | cs => cs

def isExponent : List Char → Bool
  | [] => true
  | c :: rest =>
    let digits := unsigned rest
    (c = 'e' || c = 'E') && !digits.isEmpty && digits.all Char.isDigit

/-- Decimal digits with a point among them or beside them, and an exponent. -/
def isDecimal (cs : List Char) : Bool :=
  let (whole, rest) := spanDigits cs
  let (fraction, rest) := match rest with
    | '.' :: rest => spanDigits rest
    | rest => ([], rest)
  !(whole.isEmpty && fraction.isEmpty) && isExponent rest

/-- A number, finite or not. -/
def isNumber (cs : List Char) : Bool :=
  isDecimal (unsigned cs) ||
    ["inf", "infinity", "nan"].contains (asciiLower (String.ofList (unsigned cs)))

/-- What may be given as the value of a field. Words for truth values are patterns. -/
def isFieldValue (cs : List Char) : Bool := isNumber cs || isPattern cs

def threshold? (s : String) : Option Threshold := (thresholdNumbered? s).or (thresholdNamed? s)

namespace Directive

def everything : Directive := ⟨none, none, [], false, some .trace⟩

/-- The part of a directive that is being read, with the position where it starts. -/
inductive Part where
  | start
  | levelOrTarget (start : Nat)
  | span (start : Nat)
  | field (start : Nat)
  | fields
  | target
  | level (start : Nat)

/-- The characters of a text, each with the number of bytes before it. -/
def withPositions : Nat → List Char → List (Nat × Char)
  | _, [] => []
  | i, c :: cs => (i, c) :: withPositions (i + c.utf8Size) cs

/-- A directive as far as it is read. The parts are cut out of the whole text. -/
structure Scan where
  text : List (Nat × Char)
  part : Part
  directive : Directive

def Scan.cutFrom (s : Scan) (start : Nat) : String :=
  String.ofList ((s.text.filter (start ≤ ·.1)).map (·.2))

def Scan.cut (s : Scan) (start stop : Nat) : String :=
  String.ofList ((s.text.filter fun c => start ≤ c.1 && c.1 < stop).map (·.2))

def Scan.enter (s : Scan) (part : Part) : Option Scan := some { s with part := part }

/-- A field is named, and may be given a value after an equals sign. The value ends
at a second equals sign. -/
def Scan.addField (s : Scan) (field : String) : Option Scan :=
  let isInside : Char → Bool := (· ≠ '=')
  let name := field.toList.takeWhile isInside
  let value? := (field.toList.dropWhile isInside).tail?.map (·.takeWhile isInside)
  if field = "" || value?.any (!isFieldValue ·) then none
  else
    some { s with
      part := .fields
      directive := { s.directive with
        fields := s.directive.fields ++ [String.ofList name]
        hasValue := s.directive.hasValue || value?.isSome } }

def Scan.setTarget (s : Scan) (target : String) (part : Part) : Option Scan :=
  some { s with part := part, directive := { s.directive with target := some target } }

def Scan.setSpan (s : Scan) (span : Option String) (part : Part) : Option Scan :=
  some { s with part := part, directive := { s.directive with span := span } }

/-- Reads the character at a position. -/
def Scan.next (s : Scan) (i : Nat) (c : Char) : Option Scan :=
  match s.part with
  | .start =>
    if c = '[' then s.enter (.span (i + 1))
    else if c = '-' || c = ':' || c = '_' || isAlphanumeric c then s.enter (.levelOrTarget i)
    else none
  | .levelOrTarget start =>
    if c = '=' then s.setTarget (s.cut start i) (.level (i + 1))
    else if c = '[' then s.setTarget (s.cut start i) (.span (i + 1))
    else some s
  | .target => if c = '=' then s.enter (.level (i + 1)) else none
  | .span start =>
    if c = ']' then s.setSpan (some (s.cut start i)) .target
    else if c = '\x7b' then
      let name := s.cut start i
      s.setSpan (if name = "" then none else some name) (.field (i + 1))
    else some s
  | .field start => if c = '\x7d' then s.addField (s.cut start i) else some s
  | .fields => if c = ']' then s.enter .target else none
  | .level _ => some s

/-- The directive at the end of the text. A level may be left out, and a word
alone is a level or else a target at the most verbose level. -/
def Scan.finish (s : Scan) : Option Directive :=
  match s.part with
  | .levelOrTarget start =>
    let word := s.cutFrom start
    match threshold? word with
    | some threshold => some { s.directive with threshold := threshold }
    | none => some { s.directive with target := if word = "" then none else some word }
  | .level start =>
    let word := s.cutFrom start
    if word = "" then some s.directive
    else (threshold? word).map fun threshold => { s.directive with threshold := threshold }
  | .target => some s.directive
  | _ => none

/-- Reads a directive. Blanks around it are passed over, but positions, which are in
bytes, are counted from the first other character and parts are cut out of the text
with its blanks, so that leading blanks move every part. -/
def parse? (text : String) : Option Directive := do
  let start : Scan := ⟨withPositions 0 text.toList, .start, everything⟩
  let positions := withPositions 0 (Text.trimBlank text.toList)
  let s ← positions.foldlM (fun s (i, c) => s.next i c) start
  s.finish

def isStatic (d : Directive) : Bool := d.span.isNone && !d.hasValue

def covers (d : Directive) (e : Event) : Bool :=
  (match d.target with
    | some target => target.toList.isPrefixOf e.source.target.toList
    | none => true)
  && d.fields.all fun name => name == "message" || e.fields.any (·.name == name)

/-- Whether `d` decides rather than an earlier `other` when both cover an event. -/
def outranks (d other : Directive) : Bool :=
  let size := fun (x : Directive) => x.target.elim 0 (·.utf8ByteSize + 1)
  if size d ≠ size other then decide (size other < size d)
  else if d.fields.length ≠ other.fields.length then
    decide (other.fields.length < d.fields.length)
  else !decide (d.fields < other.fields)

end Directive

abbrev Filter := List Directive

namespace Filter

def parse? (text : String) : Option Filter :=
  (((text.toList.splitOn ',').map String.ofList).filter (· ≠ "")).mapM Directive.parse?

/-- The directive that decides about an event. -/
def deciding? (f : Filter) (e : Event) : Option Directive :=
  (f.filter fun d => d.isStatic && d.covers e).foldl (fun best d =>
    match best with
    | none => some d
    | some other => if d.outranks other then some d else some other) none

def enables (f : Filter) (e : Event) : Bool :=
  match f.deciding? e with
  | some d => e.level.rank ≤ d.threshold.rank
  | none => false

end Filter

end CatalogAssembly.Log
