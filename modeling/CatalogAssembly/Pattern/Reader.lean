import CatalogAssembly.Pattern.Class
import CatalogAssembly.Text.Alphanumeric

/-!
# Reading patterns

`isPattern` reads a text part by part. Groups are kept on a stack, each with its
modes: a mode that is set within a group holds up to the end of the group, across
its alternatives.
-/
namespace CatalogAssembly.Pattern

open Text (isAlphabetic isAlphanumeric)

/-- A part of a sequence: one that sets modes, or one that can be repeated. -/
inductive Part where
  | setting
  | node (height : Nat)
  deriving DecidableEq, Repr

def Part.height : Part → Nat
  | setting => 0
  | node height => height

/-- A group that is not closed yet. -/
structure OpenGroup where
  modes : Modes := {}
  /-- The heights of the alternatives before the last one. -/
  branches : List Nat := []
  /-- The parts of the last alternative, from the end. -/
  parts : List Part := []
  deriving Repr

namespace OpenGroup

def add (g : OpenGroup) (part : Part) : OpenGroup := { g with parts := part :: g.parts }

def branchHeight (g : OpenGroup) : Nat := joinedHeight (g.parts.map Part.height)

def height (g : OpenGroup) : Nat := joinedHeight (g.branchHeight :: g.branches)

/-- The group behind one more bar. -/
def alternate (g : OpenGroup) : OpenGroup :=
  { g with branches := g.branchHeight :: g.branches, parts := [] }

/-- Repeats the last part, of which there has to be one. -/
def repeated? (g : OpenGroup) : Option OpenGroup :=
  match g.parts with
  | .node height :: parts => some { g with parts := .node (height + 1) :: parts }
  | _ => none

end OpenGroup

/-- A pattern as far as it is read. -/
structure Progress where
  group : OpenGroup := {}
  /-- The groups around it, the innermost one first. -/
  around : List OpenGroup := []
  /-- The names of groups. -/
  names : List String := []
  deriving Repr

def isNameStart (c : Char) : Bool := c = '_' || isAlphabetic c

def isNameChar (c : Char) : Bool := c = '_' || c = '.' || c = '[' || c = ']' || isAlphanumeric c

/-- The name of a group, up to the bracket that closes it. -/
def readName (cs : List Char) : Option (String × List Char) :=
  match cs.takeWhile (· ≠ '>'), cs.dropWhile (· ≠ '>') with
  | c :: name, _ :: rest =>
    if isNameStart c && name.all isNameChar then some (String.ofList (c :: name), rest) else none
  | _, _ => none

def isModeLetter (c : Char) : Bool := "imsUuRx".contains c

/-- Letters switch modes on, and off behind a dash. No sign may come twice. -/
def areModeSigns (signs : List Char) : Bool :=
  signs.all (fun c => isModeLetter c || c = '-') && decide signs.Nodup && signs.getLast? != some '-'

def Modes.set (m : Modes) (value : Bool) : Char → Modes
  | 'i' => { m with ignoresCase := value }
  | 'u' => { m with isUnicode := value }
  | 'x' => { m with isSpaced := value }
  | _ => m

def Modes.setAll (m : Modes) (signs : List Char) : Modes :=
  let on := (signs.takeWhile (· ≠ '-')).foldl (·.set true ·) m
  (signs.dropWhile (· ≠ '-')).foldl (·.set false ·) on

namespace Progress

def add (p : Progress) (part : Part) : Progress := { p with group := p.group.add part }

/-- Begins a group inside the present one. -/
def enter (p : Progress) (modes : Modes) : Progress :=
  { p with group := { modes := modes }, around := p.group :: p.around }

/-- Closes the present group, which becomes a part of the one around it. -/
def leave? (p : Progress) : Option Progress :=
  match p.around with
  | [] => none
  | outer :: around =>
    some { p with group := outer.add (.node (p.group.height + 1)), around := around }

/-- A group with a name that no other group has. -/
def enterNamed (p : Progress) (cs : List Char) : Option (Progress × List Char) := do
  let (name, rest) ← readName cs
  if p.names.contains name then none
  else some ({ p with names := name :: p.names }.enter p.group.modes, rest)

/-- Signs of modes, for the rest of the present group or for a new group. -/
def enterModes (p : Progress) (cs : List Char) : Option (Progress × List Char) :=
  let isSign : Char → Bool := fun c => c ≠ ':' && c ≠ ')'
  let signs := cs.takeWhile isSign
  let modes := p.group.modes.setAll signs
  if !areModeSigns signs then none
  else
    match cs.dropWhile isSign with
    | ':' :: rest => some (p.enter modes, rest)
    | ')' :: rest =>
      if signs.isEmpty then none
      else some ({ p with group := { p.group.add .setting with modes := modes } }, rest)
    | _ => none

/-- What begins at an opening parenthesis. -/
def enterGroup (p : Progress) (cs : List Char) : Option (Progress × List Char) :=
  match p.group.modes.skip cs with
  | '?' :: 'P' :: '<' :: rest => p.enterNamed rest
  | '?' :: '<' :: rest => p.enterNamed rest
  | '?' :: rest => p.enterModes rest
  | rest => some (p.enter p.group.modes, rest)

/-- Repeats the last part. A question mark right behind asks for few repetitions. -/
def repeatLast (p : Progress) (cs : List Char) : Option (Progress × List Char) :=
  p.group.repeated?.map fun group =>
    ({ p with group := group }, match cs with
      | '?' :: rest => rest
      | rest => rest)

def addPiece (p : Progress) (cs : List Char) : Option (Progress × List Char) := do
  let (piece, rest) ← readPiece p.group.modes cs
  if piece.fits p.group.modes then some (p.add (.node 0), rest) else none

/-- Reads one part, a parenthesis or a bar. -/
def next (p : Progress) (cs : List Char) : Option (Progress × List Char) :=
  match cs with
  | '(' :: rest => p.enterGroup rest
  | ')' :: rest => p.leave?.map (·, rest)
  | '|' :: rest => some ({ p with group := p.group.alternate }, rest)
  | '[' :: rest =>
    (readClass p.group.modes rest).map fun (height, rest) => (p.add (.node height), rest)
  | '*' :: rest => p.repeatLast rest
  | '+' :: rest => p.repeatLast rest
  | '?' :: rest => p.repeatLast rest
  | '\x7b' :: _ => none
  | _ => p.addPiece cs

/-- Every step takes at least one character. -/
def run (p : Progress) : Nat → List Char → Option Progress
  | 0, _ => none
  | fuel + 1, cs =>
    match p.group.modes.skip cs with
    | [] => some p
    | cs => (p.next cs).bind fun (p, rest) => p.run fuel rest

/-- All groups are closed, and the tree is not too high. -/
def isComplete (p : Progress) : Bool := p.around.isEmpty && p.group.height ≤ heightLimit

end Progress

def isPattern (cs : List Char) : Bool :=
  match Progress.run {} (cs.length + 1) cs with
  | some p => p.isComplete
  | none => false

end CatalogAssembly.Pattern
