import CatalogAssembly.CommandLine.Session
import CatalogAssembly.Proofs.FileFrame
import CatalogAssembly.Proofs.Run

/-!
# What a run of the program comes to

`Ends` tells the end of a run from its arguments, the settings of the assembly and the files that
it reads: the entity, or what is reported of the first stage that fails. There is no log in it and
no level of one. `Started.ran` proves that a program that has started does nothing else, as long
as it does not log to a file that it reads; the files are those that are found once the log is
open, since opening the log may make a file.
-/
namespace CatalogAssembly.CommandLine

open Json (Value)

/-- The registry that entities are assembled with. -/
inductive SchemaRead (h : Host) : Option String → Except ErrorChain Registry → Prop
  | builtin : SchemaRead h none (.ok .builtin)
  | file {path : String} {registry : Registry}
      (hload : Registry.ofFile (h.find path) = .ok registry) :
      SchemaRead h (some path) (.ok registry)
  | fails {path : String} {e : SchemaError} (hload : Registry.ofFile (h.find path) = .error e) :
      SchemaRead h (some path) (.error (("Failed to load schema " ++ path) :: e.chain))

/-- The text of the input, which a dash takes from the program's own input. -/
def inputText (h : Host) (input : String) : Except FileFault String :=
  if input = "-" then textOf h.input else h.readText input

/-- The fragments that entities are assembled from. -/
inductive InputRead (h : Host) (input : String) : Except ErrorChain (List Value) → Prop
  | array {text : String} {fragments : List Value} (htext : inputText h input = .ok text)
      (hjson : Value.parse? text = some (.array fragments)) : InputRead h input (.ok fragments)
  | noArray {text : String} (htext : inputText h input = .ok text)
      (hjson : ∀ fragments, Value.parse? text ≠ some (.array fragments)) :
      InputRead h input (.error ["Fragments must be a JSON array of single-key objects"])
  | noStandardInput {fault : FileFault} (hdash : input = "-")
      (htext : inputText h input = .error fault) :
      InputRead h input (.error ["Failed to read fragments from stdin", fault.message])
  | noFile {fault : FileFault} (hfile : input ≠ "-") (htext : inputText h input = .error fault) :
      InputRead h input (.error ["Failed to read " ++ input, fault.message])

/-- A schema named on the command line comes before one of the settings, and either of the two
may ask for strictness. -/
inductive Ends (h : Host) (a : Arguments) (s : AssemblySettings) :
    Except ErrorChain (Option Value) → Prop
  | kind (hkind : EntityKind.ofName? a.kind = none) :
      Ends h a s (.error [(AssemblyError.unsupportedKind a.kind).message])
  | schema {kind : EntityKind} {chain : ErrorChain} (hkind : EntityKind.ofName? a.kind = some kind)
      (hschema : SchemaRead h (a.schema.or s.schema) (.error chain)) : Ends h a s (.error chain)
  | input {kind : EntityKind} {registry : Registry} {chain : ErrorChain}
      (hkind : EntityKind.ofName? a.kind = some kind)
      (hschema : SchemaRead h (a.schema.or s.schema) (.ok registry))
      (hinput : InputRead h a.input (.error chain)) : Ends h a s (.error chain)
  | assembly {kind : EntityKind} {registry : Registry} {fragments : List Value} {mode : Mode}
      {fault : AssemblyError} (hkind : EntityKind.ofName? a.kind = some kind)
      (hschema : SchemaRead h (a.schema.or s.schema) (.ok registry))
      (hinput : InputRead h a.input (.ok fragments))
      (hmode : mode = .strict ↔ a.strict = true ∨ s.strict = true)
      (hassembly : (Assembler.assemble ⟨registry, mode, .passThrough⟩ kind fragments).result
        = .error fault) :
      Ends h a s (.error ["Unable to assemble " ++ kind.name ++ " from " ++ a.input,
        fault.message])
  | entity {kind : EntityKind} {registry : Registry} {fragments : List Value} {mode : Mode}
      {entity : Option Value} (hkind : EntityKind.ofName? a.kind = some kind)
      (hschema : SchemaRead h (a.schema.or s.schema) (.ok registry))
      (hinput : InputRead h a.input (.ok fragments))
      (hmode : mode = .strict ↔ a.strict = true ∨ s.strict = true)
      (hassembly : (Assembler.assemble ⟨registry, mode, .passThrough⟩ kind fragments).result
        = .ok entity) :
      Ends h a s (.ok entity)

/-- The paths of the files that a run reads. -/
def Reads (a : Arguments) (s : AssemblySettings) (path : String) : Prop :=
  a.schema.or s.schema = some path ∨ a.input ≠ "-" ∧ a.input = path

/-- The same input, and the same found at the paths that a run reads. -/
structure SameRead (a : Arguments) (s : AssemblySettings) (h h' : Host) : Prop where
  files (path : String) (hreads : Reads a s path) : h'.find path = h.find path
  input : h'.input = h.input

section Stages

variable {h h' : Host} {a : Arguments} {s : AssemblySettings}

theorem SchemaRead.unique {schema : Option String} {r r' : Except ErrorChain Registry}
    (hr : SchemaRead h schema r) (hr' : SchemaRead h schema r') : r = r' := by
  cases hr with
  | builtin =>
    cases hr'
    rfl
  | file hload => cases hr' <;> simp_all
  | fails hload => cases hr' <;> simp_all

theorem InputRead.unique {input : String} {r r' : Except ErrorChain (List Value)}
    (hr : InputRead h input r) (hr' : InputRead h input r') : r = r' := by
  cases hr with
  | array htext hjson => cases hr' <;> simp_all
  | noArray htext hjson => cases hr' <;> simp_all
  | noStandardInput hdash htext => cases hr' <;> simp_all
  | noFile hfile htext => cases hr' <;> simp_all

theorem schemaRead_schemaStage (schema : Option String) :
    SchemaRead h schema (schemaStage h schema).result := by
  cases schema with
  | none => exact .builtin
  | some path =>
    simp only [schemaStage]
    cases hload : Registry.ofFile (h.find path) with
    | ok registry => exact .file hload
    | error e => exact .fails hload

theorem readInput_eq (h : Host) (input : String) :
    readInput h input =
      match inputText h input with
      | .ok text => .ok text
      | .error fault =>
        .error (if input = "-" then ["Failed to read fragments from stdin", fault.message]
          else ["Failed to read " ++ input, fault.message]) := by
  unfold readInput inputText
  split
  · cases textOf h.input <;> rfl
  · cases h.readText input <;> rfl

theorem fragmentsOf?_eq_some_iff {text : String} {fragments : List Value} :
    fragmentsOf? text = some fragments ↔ Value.parse? text = some (.array fragments) := by
  unfold fragmentsOf?
  split <;> simp_all

theorem inputRead_inputStage (e : Effective) : InputRead h e.input (inputStage h e).result := by
  unfold inputStage
  rw [readInput_eq]
  cases htext : inputText h e.input with
  | error fault =>
    dsimp only
    split
    · rename_i hdash
      exact .noStandardInput hdash htext
    · rename_i hfile
      exact .noFile hfile htext
  | ok text =>
    dsimp only
    cases hfragments : fragmentsOf? text with
    | some fragments => exact .array htext (fragmentsOf?_eq_some_iff.mp hfragments)
    | none =>
      refine .noArray htext fun fragments hjson => ?_
      rw [fragmentsOf?_eq_some_iff.mpr hjson] at hfragments
      cases hfragments

theorem ofStrict_eq_strict_iff {strict strict' : Bool} :
    Mode.ofStrict (strict || strict') = .strict ↔ strict = true ∨ strict' = true := by
  cases strict <;> cases strict' <;> decide

theorem eq_ofStrict {mode : Mode} {strict strict' : Bool}
    (hmode : mode = .strict ↔ strict = true ∨ strict' = true) :
    mode = Mode.ofStrict (strict || strict') := by
  rw [← ofStrict_eq_strict_iff] at hmode
  generalize Mode.ofStrict _ = mode' at hmode
  cases mode <;> cases mode' <;> simp_all

theorem SchemaRead.congr {schema : Option String} {r : Except ErrorChain Registry}
    (hr : SchemaRead h schema r)
    (hfile : ∀ path, schema = some path → h'.find path = h.find path) :
    SchemaRead h' schema r := by
  cases hr with
  | builtin => exact .builtin
  | file hload => exact .file (by rw [hfile _ rfl, hload])
  | fails hload => exact .fails (by rw [hfile _ rfl, hload])

theorem InputRead.congr {input : String} {r : Except ErrorChain (List Value)}
    (hr : InputRead h input r) (htext : inputText h' input = inputText h input) :
    InputRead h' input r := by
  cases hr with
  | array h hjson => exact .array (htext.trans h) hjson
  | noArray h hjson => exact .noArray (htext.trans h) hjson
  | noStandardInput hdash h => exact .noStandardInput hdash (htext.trans h)
  | noFile hfile h => exact .noFile hfile (htext.trans h)

theorem SameRead.inputText (hread : SameRead a s h h') :
    inputText h' a.input = inputText h a.input := by
  unfold CommandLine.inputText
  split
  · rw [hread.input]
  · rename_i hfile
    rw [Host.readText, Host.readText, hread.files a.input (.inr ⟨hfile, rfl⟩)]

theorem SameRead.symm (hread : SameRead a s h h') : SameRead a s h' h where
  files path hreads := (hread.files path hreads).symm
  input := hread.input.symm

theorem SameRead.schema (hread : SameRead a s h h') (path : String)
    (hpath : a.schema.or s.schema = some path) : h'.find path = h.find path :=
  hread.files path (.inl hpath)

end Stages

section Session

variable {h : Host} {a : Arguments} {s : Settings} {seen : List Log.Event → Host}

theorem session_of_noKind (hkind : EntityKind.ofName? a.kind = none) :
    session seen (.of a s) = .fail [(AssemblyError.unsupportedKind a.kind).message] := by
  rw [session, kindStage, Effective.of, hkind]
  rfl

theorem session_of_kind {kind : EntityKind} (hkind : EntityKind.ofName? a.kind = some kind) :
    session seen (.of a s) =
      (schemaStage (seen []) (a.schema.or s.assembly.schema)).andThen fun registry =>
        (inputStage (seen (schemaStage (seen []) (a.schema.or s.assembly.schema)).notes)
            (.of a s)).andThen fun fragments =>
          assemblyStage registry kind (.of a s) fragments := by
  rw [session, kindStage, Effective.of, hkind]
  rfl

theorem result_assemblyStage (registry : Registry) (kind : EntityKind) (fragments : List Value) :
    (assemblyStage registry kind (.of a s) fragments).result =
      match (Assembler.assemble ⟨registry, .ofStrict (a.strict || s.assembly.strict), .passThrough⟩
        kind fragments).result with
      | .ok entity => .ok entity
      | .error fault =>
        .error ["Unable to assemble " ++ kind.name ++ " from " ++ a.input, fault.message] := rfl

/-- From stage to stage, each of which reads what the first host has. -/
theorem ends_session (hread : ∀ events, SameRead a s.assembly h (seen events)) :
    Ends h a s.assembly (session seen (.of a s)).result := by
  cases hkind : EntityKind.ofName? a.kind with
  | none =>
    rw [session_of_noKind hkind]
    exact .kind hkind
  | some kind =>
    have hschema := (schemaRead_schemaStage (a.schema.or s.assembly.schema)).congr
      (hread []).symm.schema
    have hinput (events : List Log.Event) := (inputRead_inputStage (.of a s)).congr
      (hread events).symm.inputText
    rw [session_of_kind hkind]
    cases hregistry : (schemaStage (seen []) (a.schema.or s.assembly.schema)).result with
    | error chain =>
      rw [Noted.andThen_of_error hregistry]
      exact .schema hkind (hregistry ▸ hschema)
    | ok registry =>
      rw [Noted.andThen_of_ok hregistry]
      have hinput := hinput (schemaStage (seen []) (a.schema.or s.assembly.schema)).notes
      rw [hregistry] at hschema
      generalize inputStage _ _ = stage at hinput ⊢
      cases hfragments : stage.result with
      | error chain =>
        rw [Noted.andThen_of_error hfragments]
        exact .input hkind hschema (hfragments ▸ hinput)
      | ok fragments =>
        rw [hfragments] at hinput
        rw [Noted.andThen_of_ok hfragments, result_assemblyStage]
        split
        · rename_i hassembly
          exact .entity hkind hschema hinput ofStrict_eq_strict_iff hassembly
        · rename_i hassembly
          exact .assembly hkind hschema hinput ofStrict_eq_strict_iff hassembly

/-- There is one end to a run. -/
theorem Ends.result_session {r : Except ErrorChain (Option Value)} (hr : Ends h a s.assembly r)
    (hread : ∀ events, SameRead a s.assembly h (seen events)) :
    (session seen (.of a s)).result = r := by
  have hregistry {r : Except ErrorChain Registry}
      (hschema : SchemaRead h (a.schema.or s.assembly.schema) r) :
      (schemaStage (seen []) (a.schema.or s.assembly.schema)).result = r :=
    (schemaRead_schemaStage _).unique (hschema.congr (hread []).schema)
  have hfragments {r : Except ErrorChain (List Value)} (events : List Log.Event)
      (hinput : InputRead h a.input r) : (inputStage (seen events) (.of a s)).result = r :=
    (inputRead_inputStage _).unique (hinput.congr (hread events).inputText)
  cases hr with
  | kind hkind =>
    rw [session_of_noKind hkind]
    rfl
  | schema hkind hschema =>
    rw [session_of_kind hkind, Noted.andThen_of_error (hregistry hschema)]
  | input hkind hschema hinput =>
    rw [session_of_kind hkind, Noted.andThen_of_ok (hregistry hschema),
      Noted.andThen_of_error (hfragments _ hinput)]
  | assembly hkind hschema hinput hmode hassembly =>
    rw [session_of_kind hkind, Noted.andThen_of_ok (hregistry hschema),
      Noted.andThen_of_ok (hfragments _ hinput), result_assemblyStage, ← eq_ofStrict hmode,
      hassembly]
  | entity hkind hschema hinput hmode hassembly =>
    rw [session_of_kind hkind, Noted.andThen_of_ok (hregistry hschema),
      Noted.andThen_of_ok (hfragments _ hinput), result_assemblyStage, ← eq_ofStrict hmode,
      hassembly]

end Session

/-- What is found at the path is the same whatever is logged. -/
def LogPlace.Apart (place : LogPlace) (h : Host) (path : String) : Prop :=
  ∀ file, place = .file file → ∀ bytes bytes',
    h.findAfter file bytes' path = h.findAfter file bytes path

/-- Among real files it is enough that the path does not lead to the log. -/
theorem LogPlace.apart_file {fs : FileSystem} {env : List (String × String)}
    {accountHome : Option String} {input : ByteArray} {log path : String} {place : List String}
    (hplace : fs.writable log = .ok place)
    (hpath : ¬ (fs.append log .empty).LeadsTo path place) :
    (file log).Apart (.ofFileSystem fs env accountHome input) path := by
  rintro _ ⟨⟩ bytes bytes'
  have hempty (bytes : ByteArray) := FileSystem.find_append_eq hplace .empty bytes hpath
  simp only [Host.ofFileSystem, FileSystem.findPath_ofText]
  exact (hempty bytes').trans (hempty bytes).symm

/-- The settings are loaded and the log is open, and it is none of the files that are read. -/
structure Started (h : Host) (arguments : List String) (a : Arguments) (s : Settings)
    (place : LogPlace) : Prop where
  accepted : Request.ofArguments arguments = .assemble a
  loaded : ∃ source, Settings.load h moduleName a.configPath? = .ok (s, source)
  opened : ∃ filter, openLog h s.logging = .ok (filter, place)
  apart (path : String) (hreads : Reads a s.assembly path) : place.Apart h path

theorem sameRead_afterLog {h : Host} {a : Arguments} {s : AssemblySettings} {place : LogPlace}
    (hapart : ∀ path, Reads a s path → place.Apart h path) (lines : List String) :
    SameRead a s (afterLog h place []) (afterLog h place lines) := by
  cases place with
  | errorOutput => exact ⟨fun _ _ => rfl, rfl⟩
  | file log => exact ⟨fun path hreads => hapart path hreads log rfl _ _, rfl⟩

/-- Exit code, output and errors of a run that came to this end. -/
def Outcome.Tells (o : Outcome) (pretty : Bool) : Except ErrorChain (Option Value) → Prop
  | .ok entity => o.exitCode = 0 ∧ o.failure = none ∧
    o.output = (if pretty then (entity.getD .null).pretty else (entity.getD .null).compact) ++ "\n"
  | .error chain => o.exitCode = 1 ∧ o.failure = some (.reported chain) ∧ o.output = ""

theorem Outcome.Tells.same {o o' : Outcome} {pretty : Bool}
    {r : Except ErrorChain (Option Value)} (ho : o.Tells pretty r) (ho' : o'.Tells pretty r) :
    o'.output = o.output ∧ o'.exitCode = o.exitCode ∧ o'.failure = o.failure := by
  cases r with
  | ok entity =>
    obtain ⟨hexit, hfailure, houtput⟩ := ho
    obtain ⟨hexit', hfailure', houtput'⟩ := ho'
    exact ⟨houtput'.trans houtput.symm, hexit'.trans hexit.symm, hfailure'.trans hfailure.symm⟩
  | error chain =>
    obtain ⟨hexit, hfailure, houtput⟩ := ho
    obtain ⟨hexit', hfailure', houtput'⟩ := ho'
    exact ⟨houtput'.trans houtput.symm, hexit'.trans hexit.symm, hfailure'.trans hfailure.symm⟩

section Runs

variable {h : Host} {arguments : List String} {a : Arguments} {s : Settings} {place : LogPlace}

theorem sameRead_refl : SameRead a s.assembly h h := ⟨fun _ _ => rfl, rfl⟩

theorem exists_ends : ∃ r, Ends h a s.assembly r :=
  ⟨(session (fun _ => h) (.of a s)).result, ends_session fun _ => sameRead_refl⟩

theorem Ends.unique {r r' : Except ErrorChain (Option Value)} (hr : Ends h a s.assembly r)
    (hr' : Ends h a s.assembly r') : r' = r :=
  have hread (_ : List Log.Event) : SameRead a s.assembly h h := sameRead_refl
  (hr'.result_session hread).symm.trans (hr.result_session hread)

/-- By the same task, whose parts may come from other places. -/
theorem Ends.congr {h' : Host} {a' : Arguments} {s' : Settings}
    {r : Except ErrorChain (Option Value)} (hr : Ends h a s.assembly r)
    (hsame : Effective.of a' s' = Effective.of a s) (hread : SameRead a s.assembly h h') :
    Ends h' a' s'.assembly r := by
  have hend : Ends h' a' s'.assembly (session (fun _ => h') (.of a' s')).result :=
    ends_session fun _ => sameRead_refl
  rwa [hsame, hr.result_session fun _ => hread] at hend

variable (hstarted : Started h arguments a s place)

include hstarted

theorem Started.run_eq :
    ∃ source filter, run h arguments = runSession h a s source filter place := by
  obtain ⟨source, hload⟩ := hstarted.loaded
  obtain ⟨filter, hopen⟩ := hstarted.opened
  refine ⟨source, filter, ?_⟩
  rw [run, hstarted.accepted]
  simp only [runArguments, hload, hopen]

theorem Started.tells {r : Except ErrorChain (Option Value)}
    (hend : Ends (afterLog h place []) a s.assembly r) : (run h arguments).Tells a.pretty r := by
  obtain ⟨source, filter, hrun⟩ := hstarted.run_eq
  have hresult := hend.result_session
    fun events => sameRead_afterLog hstarted.apart (logLines source filter events)
  rw [hrun, runSession]
  simp only [hresult]
  cases r with
  | ok entity => exact ⟨rfl, rfl, rfl⟩
  | error chain => exact ⟨rfl, rfl, rfl⟩

end Runs

/-- What comes of a run that has started. -/
structure Ran (h : Host) (arguments : List String) (a : Arguments) (s : Settings)
    (place : LogPlace) : Prop where
  /-- The stages come to one end, ... -/
  ends : ∃ r, Ends (afterLog h place []) a s.assembly r ∧
    ∀ r', Ends (afterLog h place []) a s.assembly r' → r' = r
  /-- ... which the program tells. -/
  tells (r : Except ErrorChain (Option Value))
    (hend : Ends (afterLog h place []) a s.assembly r) : (run h arguments).Tells a.pretty r
  succeeds : (run h arguments).exitCode = 0 ↔
    ∃ entity, Ends (afterLog h place []) a s.assembly (.ok entity)
  /-- Another run with the same task, whatever the variables and settings files of the two and
  the level and place of their logs. -/
  independent (h' : Host) (arguments' : List String) (a' : Arguments) (s' : Settings)
    (place' : LogPlace) (hstarted : Started h' arguments' a' s' place')
    (hsame : Effective.of a' s' = Effective.of a s) (hpretty : a'.pretty = a.pretty)
    (hread : SameRead a s.assembly (afterLog h place []) (afterLog h' place' [])) :
    (run h' arguments').output = (run h arguments).output ∧
      (run h' arguments').exitCode = (run h arguments).exitCode ∧
      (run h' arguments').failure = (run h arguments).failure

theorem Started.ran {h : Host} {arguments : List String} {a : Arguments} {s : Settings}
    {place : LogPlace} (hstarted : Started h arguments a s place) : Ran h arguments a s place := by
  obtain ⟨r, hend⟩ := exists_ends (h := afterLog h place []) (a := a) (s := s)
  refine ⟨⟨r, hend, fun _ => hend.unique⟩, fun _ => hstarted.tells, ?_, ?_⟩
  · have htells := hstarted.tells hend
    constructor
    · intro hexit
      cases r with
      | ok entity => exact ⟨entity, hend⟩
      | error chain =>
        rw [htells.1] at hexit
        cases hexit
    · rintro ⟨entity, hentity⟩
      exact (hstarted.tells hentity).1
  · intro h' arguments' a' s' place' hstarted' hsame hpretty hread
    exact (hstarted.tells hend).same (hpretty ▸ hstarted'.tells (hend.congr hsame hread))

section Logging

def loggingText : String := "[logging]\nfile = \"log\"\n[merge]\nstrict = true"

def releaseText : String :=
  "[\x7b\"albumRelease\": \x7b\"id\": 1, \"primaryArtists\": [4, 5]\x7d\x7d,
    \x7b\"artist\": \x7b\"id\": 5, \"name\": \"A\"\x7d\x7d]"

def printedRelease : String :=
  "\x7b\"id\":1,\"primaryArtists\":[4,\x7b\"id\":5,\"name\":\"A\"\x7d]\x7d"

/-- Settings that name a file for the log and ask for strictness, and a release with its artist;
the log is not there yet. -/
def loggingFiles : FileSystem where
  root := .directory [("em", .file loggingText.toUTF8), ("in", .file releaseText.toUTF8)]
  workingDirectory := []

def loggingHost : Host := .ofFileSystem loggingFiles [] none .empty

def loggingArguments : Arguments := ⟨"album-release", none, false, some "em", false, "in"⟩

def loggingSettings : Settings := ⟨⟨"info", some "log"⟩, ⟨true, none⟩⟩

theorem find_loggingHost : loggingHost.find "em" = .ok (.file loggingText.toUTF8) := by
  have hfault : pathFault? "em" = none := pathFault?_eq_none (by decide) (by decide) (by decide)
  have hparts : loggingFiles.parts "em" = ["em"] := by decide +kernel
  change loggingFiles.findPath (.ofText "em") = _
  rw [FileSystem.findPath_ofText, FileSystem.find, hfault, hparts]
  rfl

theorem writable_loggingFiles : loggingFiles.writable "log" = .ok ["log"] := by
  have hfault : pathFault? "log" = none := pathFault?_eq_none (by decide) (by decide) (by decide)
  have hparts : loggingFiles.parts "log" = ["log"] := by decide +kernel
  rw [FileSystem.writable, hfault, hparts]
  rfl

theorem parts_inputName (root : FileTree) : FileSystem.parts ⟨root, []⟩ "in" = ["in"] := by
  change loggingFiles.parts "in" = ["in"]
  decide +kernel

theorem append_loggingFiles (bytes : ByteArray) :
    loggingFiles.append "log" bytes = ⟨.directory [("log", .file (.empty ++ bytes)),
      ("em", .file loggingText.toUTF8), ("in", .file releaseText.toUTF8)], []⟩ := by
  rw [FileSystem.append, writable_loggingFiles]
  rfl

theorem not_leadsTo_loggingFiles : ¬ (loggingFiles.append "log" .empty).LeadsTo "in" ["log"] := by
  rw [append_loggingFiles, FileSystem.LeadsTo, parts_inputName]
  intro hwalk
  have hplace : ["in"] = ["log"] := Except.ok.inj hwalk
  exact absurd hplace (by decide)

theorem load_loggingHost :
    Settings.load loggingHost moduleName (some (.ofText "em"))
      = .ok (loggingSettings, .file "em") := by
  have hparse : (Toml.parse? loggingText).bind Settings.ofToml? = some loggingSettings := by
    decide +kernel
  simp only [Settings.load, chosenSettingsPath?, Host.pathExists, find_loggingHost,
    Settings.ofFile, Host.readText, FileEntry.text, textOf_toUTF8, Settings.parse, hparse, if_true]
  rfl

theorem openLog_loggingHost :
    openLog loggingHost loggingSettings.logging
      = .ok ([⟨none, none, [], false, some .info⟩], .file "log") := by
  have hfilter : Log.Filter.parse? "info" = some [⟨none, none, [], false, some .info⟩] := by
    decide +kernel
  simp only [openLog, logFilter, loggingSettings, hfilter, loggingHost, Host.ofFileSystem,
    writable_loggingFiles]
  rfl

theorem inputText_loggingHost :
    inputText (afterLog loggingHost (.file "log") []) "in" = .ok releaseText := by
  have hfault : pathFault? "in" = none := pathFault?_eq_none (by decide) (by decide) (by decide)
  have hfind : (afterLog loggingHost (.file "log") []).find "in"
      = .ok (.file releaseText.toUTF8) := by
    change (loggingFiles.append "log" _).findPath (.ofText "in") = _
    rw [FileSystem.findPath_ofText, append_loggingFiles, FileSystem.find, hfault, parts_inputName]
    rfl
  rw [inputText, if_neg (by decide), Host.readText, hfind, FileEntry.text, textOf_toUTF8]

/-- What is printed can be compared, which values cannot. -/
theorem entity_of_releaseText :
    ∃ fragments entity, Value.parse? releaseText = some (.array fragments) ∧
      (Assembler.assemble ⟨.builtin, .strict, .passThrough⟩ .albumRelease fragments).result
        = .ok (some entity) ∧ entity.compact = printedRelease := by
  have hprinted : ((fragmentsOf? releaseText).bind fun fragments =>
      (Assembler.assemble ⟨.builtin, .strict, .passThrough⟩ .albumRelease
        fragments).result.toOption.join).map Value.compact = some printedRelease := by
    decide +kernel
  obtain ⟨entity, hentity, hcompact⟩ := Option.map_eq_some_iff.mp hprinted
  obtain ⟨fragments, hfragments, hresult⟩ := Option.bind_eq_some_iff.mp hentity
  refine ⟨fragments, entity, fragmentsOf?_eq_some_iff.mp hfragments, ?_, hcompact⟩
  cases hassembly : (Assembler.assemble ⟨.builtin, .strict, .passThrough⟩ .albumRelease
    fragments).result with
  | error fault =>
    rw [hassembly] at hresult
    cases hresult
  | ok entity? =>
    rw [hassembly] at hresult
    exact congrArg Except.ok hresult

theorem Started.ran_logging :
    let arguments := ["-c", "em", "in"]
    Started loggingHost arguments loggingArguments loggingSettings (.file "log") ∧
      Ran loggingHost arguments loggingArguments loggingSettings (.file "log") ∧
      (run loggingHost arguments).exitCode = 0 ∧
      (run loggingHost arguments).output = printedRelease ++ "\n" := by
  intro arguments
  have hstarted : Started loggingHost arguments loggingArguments loggingSettings
      (.file "log") := by
    refine ⟨by decide +kernel, ⟨_, load_loggingHost⟩, ⟨_, openLog_loggingHost⟩, ?_⟩
    rintro path (hschema | ⟨-, rfl⟩)
    · cases hschema
    · exact LogPlace.apart_file writable_loggingFiles not_leadsTo_loggingFiles
  have hran := hstarted.ran
  obtain ⟨fragments, entity, hjson, hassembly, hcompact⟩ := entity_of_releaseText
  have hend : Ends (afterLog loggingHost (.file "log") []) loggingArguments
      loggingSettings.assembly (.ok (some entity)) :=
    .entity rfl .builtin (.array inputText_loggingHost hjson) (by decide) hassembly
  obtain ⟨hexit, -, houtput⟩ := hran.tells _ hend
  exact ⟨hstarted, hran, hexit, houtput.trans (congrArg (· ++ "\n") hcompact)⟩

end Logging

end CatalogAssembly.CommandLine
