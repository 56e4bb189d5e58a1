import CatalogAssembly.CommandLine.Session

/-!
# What a run looks at

A run asks its host about few things, and each of them is known before it is
asked for: the files that may hold settings from the arguments and the
environment, everything else from the settings. A program can therefore look
them up beforehand, in two rounds, and hand the run a host that holds them.
-/
namespace CatalogAssembly.CommandLine

def consultedVariables : List String :=
  ["XDG_CONFIG_HOME", "HOME", "RUST_LOG", settingsVariable moduleName]

/-- The files that may hold the settings. -/
def settingsPaths (h : Host) (a : Arguments) : List FilePath :=
  a.configPath?.toList ++ ((h.environmentText? (settingsVariable moduleName)).map .ofText).toList
    ++ (userSettingsPath? h moduleName).toList

/-- The file that is opened for the log. -/
def logPath? (h : Host) (a : Arguments) : Option String :=
  match Settings.load h moduleName a.configPath? with
  | .error _ => none
  | .ok (s, _) =>
    match logFilter h s.logging.level with
    | .error _ => none
    | .ok _ => s.logging.file

/-- The files of the schema and of the input. -/
def sessionPaths (h : Host) (a : Arguments) : List FilePath :=
  match Settings.load h moduleName a.configPath? with
  | .error _ => []
  | .ok (s, _) =>
    let e := Effective.of a s
    (e.schema.map .ofText).toList ++ if e.input = "-" then [] else [.ofText e.input]

/-- Whether the run comes to read its input from the standard one. -/
def readsInput (h : Host) (a : Arguments) : Bool :=
  match Settings.load h moduleName a.configPath? with
  | .error _ => false
  | .ok (s, source) =>
    match openLog h s.logging with
    | .error _ => false
    | .ok (filter, place) =>
      let e := Effective.of a s
      let before := (kindStage e.kind).andThen fun _ =>
        schemaStage (afterLog h place (logLines source filter [])) e.schema
      e.input = "-" && before.result.isOk

end CatalogAssembly.CommandLine
