import CatalogAssembly.Log.Event
import CatalogAssembly.Noted
import CatalogAssembly.Settings.Basic
import CatalogAssembly.Text.Blank
import CatalogAssembly.Text.Upper

/-!
# Where settings come from

A file named on the command line comes first, then one named by the module's
variable unless that is blank, then the user's own file if it is there. Only the
first of them is looked at: when a named file is missing the settings are the
defaults, and when a file is there and cannot be used, loading fails.
-/
namespace CatalogAssembly

/-- Without a leading mark, as often as it stands there. -/
def dropLeading (mark : List Char) : Nat → List Char → List Char
  | 0, cs => cs
  | fuel + 1, cs =>
    if mark.isPrefixOf cs then dropLeading mark fuel (cs.drop mark.length) else cs

/-- The variable that names the settings file of a module. -/
def settingsVariable (module : String) : String :=
  let cs := module.toList
  let name := (dropLeading "wkmp-".toList cs.length cs).map fun c => if c = '-' then '_' else c
  "WKMP_" ++ Text.upper (String.ofList name) ++ "_CONFIG"

/-- The user's settings file of a module. -/
def userSettingsPath? (h : Host) (module : String) : Option FilePath :=
  h.configDirectory?.map fun directory => (directory.join "wkmp").join (module ++ ".toml")

/-- The file that settings are looked for in. -/
def chosenSettingsPath? (h : Host) (module : String) (named : Option FilePath) :
    Option FilePath :=
  match named with
  | some path => some path
  | none =>
    match (h.environmentText? (settingsVariable module)).filter (!Text.allBlank ·) with
    | some path => some path
    | none => (userSettingsPath? h module).filter h.pathExists

inductive SettingsSource where
  | file (path : FilePath)
  | missing (path : FilePath)
  | defaults
  deriving DecidableEq, Repr

def SettingsSource.event (s : SettingsSource) (module : String) : Log.Event :=
  match s with
  | .file path =>
    ⟨.debug, .settings, "Loaded config file",
      [Log.plain "module" module, Log.plain "path" path.display]⟩
  | .missing path =>
    ⟨.warn, .settings, "Config file not found, using compiled defaults",
      [Log.plain "path" path.display]⟩
  | .defaults =>
    ⟨.debug, .settings, "No config file configured, using compiled defaults",
      [Log.plain "module" module]⟩

namespace Settings

def ofFile (h : Host) (path : FilePath) : Except SettingsError Settings :=
  match h.readText path with
  | .error fault => .error (.unreadable path fault)
  | .ok text => parse text

def load (h : Host) (module : String) (named : Option FilePath) :
    Except SettingsError (Settings × SettingsSource) :=
  match chosenSettingsPath? h module named with
  | none => .ok ({}, .defaults)
  | some path =>
    if h.pathExists path then (ofFile h path).map (·, .file path)
    else .ok ({}, .missing path)

/-- The settings alone; where they came from is logged. -/
def loadLogged (h : Host) (module : String) (named : Option FilePath) :
    Noted Log.Event SettingsError Settings :=
  match load h module named with
  | .ok (settings, source) => ⟨[source.event module], .ok settings⟩
  | .error e => .fail e

end Settings

end CatalogAssembly
