import CatalogAssembly.Text.Quoted

/-!
# Log events

An event has a level, the part of the program it comes from, a message and
fields. Its line gives all of them, with texts that come from data in quotes.
-/
namespace CatalogAssembly.Log

inductive Level where
  | error
  | warn
  | info
  | debug
  | trace
  deriving DecidableEq, Repr

namespace Level

def name : Level → String
  | .error => "ERROR"
  | .warn => "WARN"
  | .info => "INFO"
  | .debug => "DEBUG"
  | .trace => "TRACE"

/-- More verbose levels have greater ranks; nothing has rank zero. -/
def rank : Level → Nat
  | .error => 1
  | .warn => 2
  | .info => 3
  | .debug => 4
  | .trace => 5

end Level

/-- The parts of the program that log. -/
inductive Source where
  | program
  | settings
  | schema
  | assembly
  | diagnostics
  deriving DecidableEq, Repr

def Source.target : Source → String
  | .program => "wkmp_em"
  | .settings => "wkmp_common::config"
  | .schema => "wkmp_em::schema::loader"
  | .assembly => "wkmp_em::merger"
  | .diagnostics => "wkmp_em::hooks"

structure Field where
  name : String
  text : String
  quoted : Bool

def plain (name text : String) : Field := ⟨name, text, false⟩

structure Event where
  level : Level
  source : Source
  message : String
  fields : List Field

/-- Controls that a terminal would act on are spelled out in messages. -/
def visibleChar (c : Char) : List Char :=
  if [7, 8, 12, 27, 127].contains c.toNat then
    '\\' :: 'x' :: (if c.toNat < 16 then ['0'] else []) ++ Text.hexDigits c.toNat
  else if 0x80 ≤ c.toNat && c.toNat ≤ 0x9f then
    ['\\', 'u', '\x7b'] ++ Text.hexDigits c.toNat ++ ['\x7d']
  else [c]

def Field.line (f : Field) : String :=
  f.name ++ "=" ++ if f.quoted then Text.quoted f.text else f.text

def Event.line (e : Event) : String :=
  e.level.name ++ " " ++ e.source.target ++ ": "
    ++ String.intercalate " "
      (String.ofList (e.message.toList.flatMap visibleChar) :: e.fields.map Field.line)

end CatalogAssembly.Log
