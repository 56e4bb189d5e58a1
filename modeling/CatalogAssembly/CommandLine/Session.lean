import CatalogAssembly.CommandLine.Arguments
import CatalogAssembly.Json.Reader
import CatalogAssembly.Log.Filter
import CatalogAssembly.Log.Report
import CatalogAssembly.Schema.Document
import CatalogAssembly.Settings.Source

/-!
# A run of the program

A run reads its arguments and settings, opens the log, and then goes through
four stages, each of which may fail: the kind, the schema, the input and the
assembly. The entity is printed only when all of them succeed. `session` gives
the events and the result of the four stages. The log level and the place of the
log have a part in it only where a stage reads the very file that is logged to.
-/
namespace CatalogAssembly.CommandLine

open Json (Value)
open Log (Event plain)

def moduleName : String := "wkmp-em"

def version : String := "0.1.0"

def versionText : String := moduleName ++ " " ++ version ++ "\n"

def helpText : String := String.intercalate "\n"
  ["Assemble a catalog entity from its fragments",
   "",
   "Usage: wkmp-em [OPTIONS] <INPUT>",
   "",
   "Arguments:",
   "  <INPUT>  JSON file holding an array of fragments, or \"-\" for stdin",
   "",
   "Options:",
   "  -k, --kind <KIND>      Entity kind to assemble (e.g. album-release) [default: album-release]",
   "  -s, --schema <SCHEMA>  TOML schema file replacing the built-in entity schema",
   "      --strict           Fail on a missing root fragment or an unmatched collection placeholder",
   "  -c, --config <CONFIG>  Config file (defaults to $WKMP_EM_CONFIG, then ~/.config/wkmp/wkmp-em.toml)",
   "  -p, --pretty           Pretty-print the merged entity",
   "  -h, --help             Print help",
   "  -V, --version          Print version",
   ""]

/-- The texts of an error and of its causes, outermost first. -/
abbrev ErrorChain := List String

/-- A stage with the events that it logs. -/
abbrev Stage (α : Type) := Noted Event ErrorChain α

/-- The settings that a run goes by, from its arguments and its settings file. -/
structure Effective where
  kind : String
  schema : Option String
  mode : Mode
  input : String

def Effective.of (a : Arguments) (s : Settings) : Effective :=
  ⟨a.kind, a.schema.or s.assembly.schema, .ofStrict (a.strict || s.assembly.strict), a.input⟩

def kindStage (name : String) : Stage EntityKind :=
  match EntityKind.ofName? name with
  | some kind => .pure kind
  | none => .fail [(AssemblyError.unsupportedKind name).message]

def schemaStage (h : Host) (path : Option String) : Stage Registry :=
  match path with
  | none => .pure Registry.builtin
  | some path =>
    match Registry.ofFile (h.find path) with
    | .ok registry => ⟨[registry.loadedEvent path], .ok registry⟩
    | .error e => .fail (("Failed to load schema " ++ path) :: e.chain)

def readInput (h : Host) (input : String) : Except ErrorChain String :=
  if input = "-" then
    match textOf h.input with
    | .ok text => .ok text
    | .error fault => .error ["Failed to read fragments from stdin", fault.message]
  else
    match h.readText input with
    | .ok text => .ok text
    | .error fault => .error ["Failed to read " ++ input, fault.message]

/-- The fragments in a text. -/
def fragmentsOf? (text : String) : Option (List Value) :=
  match Value.parse? text with
  | some (.array fragments) => some fragments
  | _ => none

/-- The error of the reader of JSON, which would be the cause when the text holds no fragments, is
left out. -/
def inputStage (h : Host) (e : Effective) : Stage (List Value) :=
  match readInput h e.input with
  | .error chain => .fail chain
  | .ok text =>
    match fragmentsOf? text with
    | none => .fail ["Fragments must be a JSON array of single-key objects"]
    | some fragments =>
      ⟨[⟨.debug, .program, "Fragments loaded",
        [plain "count" (toString fragments.length), plain "mode" e.mode.label]⟩],
        .ok fragments⟩

def assemblyStage (registry : Registry) (kind : EntityKind) (e : Effective)
    (fragments : List Value) : Stage (Option Value) :=
  let r := Assembler.assemble ⟨registry, e.mode, .passThrough⟩ kind fragments
  ⟨r.events,
    match r.result with
    | .ok entity => .ok entity
    | .error fault =>
      .error ["Unable to assemble " ++ kind.name ++ " from " ++ e.input, fault.message]⟩

/-- The four stages in order; `seen` is the host once the given events of theirs
are logged. -/
def session (seen : List Event → Host) (e : Effective) : Stage (Option Value) :=
  (kindStage e.kind).andThen fun kind =>
    let schema := schemaStage (seen []) e.schema
    schema.andThen fun registry =>
      (inputStage (seen schema.notes) e).andThen fun fragments =>
        assemblyStage registry kind e fragments

/-- The entity as it is printed; no entity is printed as null. -/
def rendered (pretty : Bool) (entity : Option Value) : String :=
  let v := entity.getD .null
  (if pretty then v.pretty else v.compact) ++ "\n"

inductive Failure where
  | usage
  | reported (chain : ErrorChain)
  deriving DecidableEq, Repr

/-- Where the lines of the log go. -/
inductive LogPlace where
  | errorOutput
  | file (path : String)
  deriving DecidableEq, Repr

structure Outcome where
  output : String
  failure : Option Failure
  log : List String
  logPlace : LogPlace

namespace Outcome

def ofText (output : String) : Outcome := ⟨output, none, [], .errorOutput⟩

def ofFailure (failure : Failure) : Outcome := ⟨"", some failure, [], .errorOutput⟩

def exitCode (o : Outcome) : Nat :=
  match o.failure with
  | none => 0
  | some (.reported _) => 1
  | some .usage => 2

end Outcome

/-- The filter of the log: the variable's if it can be read, else the settings'. -/
def logFilter (h : Host) (level : String) : Except SettingsError Log.Filter :=
  match (h.environmentText? "RUST_LOG").bind Log.Filter.parse? with
  | some filter => .ok filter
  | none =>
    match Log.Filter.parse? level with
    | some filter => .ok filter
    | none => .error (.invalidLevel level)

/-- Opens the log, if it can be opened. -/
def openLog (h : Host) (s : LoggingSettings) : Except SettingsError (Log.Filter × LogPlace) := do
  let filter ← logFilter h s.level
  match s.file with
  | none => .ok (filter, .errorOutput)
  | some path =>
    match h.appendFault? path with
    | none => .ok (filter, .file path)
    | some fault => .error (.logFile fault)

def startEvent : Event := ⟨.info, .program, "Starting " ++ moduleName ++ " " ++ version, []⟩

/-- The log of a run that has come to these events of its stages. -/
def logLines (source : SettingsSource) (filter : Log.Filter) (events : List Event) :
    List String :=
  ((startEvent :: source.event moduleName :: events).filter filter.enables).map Event.line

/-- The host once the lines are logged. -/
def afterLog (h : Host) (place : LogPlace) (lines : List String) : Host :=
  match place with
  | .errorOutput => h
  | .file path => h.appended path (String.join (lines.map (· ++ "\n"))).toUTF8

/-- A run with settings and an open log. -/
def runSession (h : Host) (a : Arguments) (s : Settings) (source : SettingsSource)
    (filter : Log.Filter) (place : LogPlace) : Outcome :=
  let log := logLines source filter
  let stage := session (fun events => afterLog h place (log events)) (.of a s)
  match stage.result with
  | .ok entity => ⟨rendered a.pretty entity, none, log stage.notes, place⟩
  | .error chain => ⟨"", some (.reported chain), log stage.notes, place⟩

def runArguments (h : Host) (a : Arguments) : Outcome :=
  match Settings.load h moduleName a.configPath? with
  | .error e => .ofFailure (.reported ("Failed to load configuration" :: e.chain))
  | .ok (s, source) =>
    match openLog h s.logging with
    | .error e => .ofFailure (.reported e.chain)
    | .ok (filter, place) => runSession h a s source filter place

def run (h : Host) (arguments : List String) : Outcome :=
  match Request.ofArguments arguments with
  | .version => .ofText versionText
  | .help => .ofText helpText
  | .misuse => .ofFailure .usage
  | .assemble a => runArguments h a

end CatalogAssembly.CommandLine
