import CatalogAssembly.Files
import CatalogAssembly.Toml.Reader

/-!
# Settings

Settings are read from a TOML document in which everything may be left out and
what is unknown is passed over.
-/
namespace CatalogAssembly

structure LoggingSettings where
  level : String := "info"
  file : Option String := none
  deriving DecidableEq, Repr

structure AssemblySettings where
  strict : Bool := false
  schema : Option String := none
  deriving DecidableEq, Repr

structure Settings where
  logging : LoggingSettings := {}
  assembly : AssemblySettings := {}
  deriving DecidableEq, Repr

inductive SettingsError where
  | unreadable (path : FilePath) (fault : FileFault)
  | malformed
  | invalidLevel (level : String)
  | logFile (fault : FileFault)
  deriving DecidableEq, Repr

namespace SettingsError

/-- The text of an error. For a malformed document and for an invalid level the words of the
reader of TOML or of the filter would follow; they are left out. -/
def message : SettingsError → String
  | .unreadable path fault =>
    "Configuration error: Read TOML failed (" ++ path.display ++ "): " ++ fault.message
  | .malformed => "Configuration error: Parse TOML failed"
  | .invalidLevel level => "Configuration error: Invalid log level '" ++ level ++ "'"
  | .logFile fault => "IO error: " ++ fault.message

/-- The error and what it was caused by, outermost first. -/
def chain (e : SettingsError) : List String :=
  match e with
  | .logFile fault => [e.message, fault.message]
  | _ => [e.message]

end SettingsError

namespace Settings

def readLogging (v : Toml.Value) : Option LoggingSettings := do
  let fields ← v.fields? ["level", "file"] false
  let level ← fields.withDefault "level" "info" Toml.Value.string?
  let file ← fields.optional "file" Toml.Value.string?
  some ⟨level, file⟩

def readAssembly (v : Toml.Value) : Option AssemblySettings := do
  let fields ← v.fields? ["strict", "schema"] false
  let strict ← fields.withDefault "strict" false Toml.Value.bool?
  let schema ← fields.optional "schema" Toml.Value.string?
  some ⟨strict, schema⟩

def ofToml? (v : Toml.Value) : Option Settings := do
  let fields ← v.fields? ["logging", "merge"] false
  let logging ← fields.withDefault "logging" {} readLogging
  let assembly ← fields.withDefault "merge" {} readAssembly
  some ⟨logging, assembly⟩

def parse (text : String) : Except SettingsError Settings :=
  match (Toml.parse? text).bind ofToml? with
  | some settings => .ok settings
  | none => .error .malformed

end Settings

end CatalogAssembly
