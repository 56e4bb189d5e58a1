import CatalogAssembly.FilePath

/-!
# Command-line arguments

Options may stand before and after the input, short flags may be bundled, and
the value of an option may be attached to it, for a long option after an equals
sign. Every option is given once at most and not abbreviated. After `--` nothing
is an option. Arguments are read from the left, so that the version and the help
are shown if nothing before them is wrong.
-/
namespace CatalogAssembly.CommandLine

structure Arguments where
  kind : String
  schema : Option String
  strict : Bool
  config : Option String
  pretty : Bool
  input : String
  deriving DecidableEq, Repr

def Arguments.configPath? (a : Arguments) : Option FilePath := a.config.map FilePath.ofText

/-- What the arguments ask for. -/
inductive Request where
  | assemble (arguments : Arguments)
  | version
  | help
  | misuse
  deriving DecidableEq, Repr

/-- Options that take a value. -/
inductive ValueOption where
  | kind
  | schema
  | config
  deriving DecidableEq, Repr

inductive Flag where
  | strict
  | pretty
  | version
  | help
  deriving DecidableEq, Repr

inductive Name where
  | value (option : ValueOption)
  | flag (flag : Flag)
  deriving DecidableEq, Repr

def longName? : String → Option Name
  | "kind" => some (.value .kind)
  | "schema" => some (.value .schema)
  | "config" => some (.value .config)
  | "strict" => some (.flag .strict)
  | "pretty" => some (.flag .pretty)
  | "version" => some (.flag .version)
  | "help" => some (.flag .help)
  | _ => none

def shortName? : Char → Option Name
  | 'k' => some (.value .kind)
  | 's' => some (.value .schema)
  | 'c' => some (.value .config)
  | 'p' => some (.flag .pretty)
  | 'V' => some (.flag .version)
  | 'h' => some (.flag .help)
  | _ => none

def defaultKind : String := "album-release"

/-- Arguments as far as they are read. -/
structure Draft where
  kind : Option String := none
  schema : Option String := none
  strict : Bool := false
  config : Option String := none
  pretty : Bool := false
  input : Option String := none

/-- What to do after an argument. -/
inductive Progress where
  | next (d : Draft)
  | awaiting (d : Draft) (option : ValueOption)
  | stop (request : Request)

namespace Draft

/-- A path must not be empty. -/
def path? (old : Option String) (path : String) : Option String :=
  if old.isSome || path = "" then none else some path

def setValue (d : Draft) (option : ValueOption) (v : String) : Progress :=
  match option with
  | .kind => if d.kind.isSome then .stop .misuse else .next { d with kind := some v }
  | .schema =>
    match path? d.schema v with
    | some v => .next { d with schema := some v }
    | none => .stop .misuse
  | .config =>
    match path? d.config v with
    | some v => .next { d with config := some v }
    | none => .stop .misuse

def setInput (d : Draft) (v : String) : Progress :=
  match path? d.input v with
  | some v => .next { d with input := some v }
  | none => .stop .misuse

def setFlag (d : Draft) (flag : Flag) : Progress :=
  match flag with
  | .strict => if d.strict then .stop .misuse else .next { d with strict := true }
  | .pretty => if d.pretty then .stop .misuse else .next { d with pretty := true }
  | .version => .stop .version
  | .help => .stop .help

/-- Short options behind one dash. -/
def readBundle (d : Draft) : List Char → Progress
  | [] => .next d
  | c :: rest =>
    match shortName? c with
    | none => .stop .misuse
    | some (.flag flag) =>
      match d.setFlag flag with
      | .next d => d.readBundle rest
      | other => other
    | some (.value option) =>
      match rest with
      | [] => .awaiting d option
      | '=' :: v => d.setValue option (String.ofList v)
      | v => d.setValue option (String.ofList v)

def readLong (d : Draft) (text : List Char) : Progress :=
  let name := text.takeWhile (· ≠ '=')
  let attached := match text.dropWhile (· ≠ '=') with
    | _ :: v => some (String.ofList v)
    | [] => none
  match longName? (String.ofList name), attached with
  | some (.flag flag), none => d.setFlag flag
  | some (.value option), none => .awaiting d option
  | some (.value option), some v => d.setValue option v
  | _, _ => .stop .misuse

def readArgument (d : Draft) (argument : String) : Progress :=
  match argument.toList with
  | '-' :: '-' :: text => d.readLong text
  | '-' :: c :: rest => d.readBundle (c :: rest)
  | _ => d.setInput argument

/-- The input is the only argument that has to be given. -/
def finish (d : Draft) : Request :=
  match d.input with
  | none => .misuse
  | some input =>
    .assemble ⟨d.kind.getD defaultKind, d.schema, d.strict, d.config, d.pretty, input⟩

/-- Arguments after the mark that ends the options. -/
def readInputs (d : Draft) : List String → Request
  | [] => d.finish
  | argument :: rest =>
    match d.setInput argument with
    | .next d => d.readInputs rest
    | _ => .misuse

def looksLikeOption (argument : String) : Bool :=
  argument.startsWith "-" && argument ≠ "-"

/-- Arguments in order; an option without its value takes the next argument. -/
def read (d : Draft) (awaiting : Option ValueOption) : List String → Request
  | [] => if awaiting.isSome then .misuse else d.finish
  | argument :: rest =>
    match awaiting with
    | some option =>
      if looksLikeOption argument then .misuse
      else
        match d.setValue option argument with
        | .next d => d.read none rest
        | _ => .misuse
    | none =>
      if argument = "--" then d.readInputs rest
      else
        match d.readArgument argument with
        | .next d => d.read none rest
        | .awaiting d option => d.read (some option) rest
        | .stop request => request

end Draft

def Request.ofArguments (arguments : List String) : Request := Draft.read {} none arguments

end CatalogAssembly.CommandLine
