import CatalogAssembly.Proofs.SettingsPlaces

/-!
# The one file that settings come from

Of the three places that may name a settings file only the first that does so has a say.
`Chooses` tells which one that is: the file named on the command line, else the one of the
module's variable if that is a text and not blank, else the user's own file if it is there. What
is loaded depends on the choice and on what is found at the chosen path, and on nothing else:
a file that was asked for and is missing is not made up for by a place further down, and a file
that is there is used or refused. `Loaded` says what comes of each choice, with `SaysSettings` for
what the text of a file says, and `loadsChosen` puts them together.
-/
namespace CatalogAssembly

/-- The module's variable is set to a text that is not blank. -/
def NamedByVariable (h : Host) (module path : String) : Prop :=
  ∃ name bytes, VariableOf module name ∧ h.environment name = some bytes ∧
    String.fromUTF8? bytes = some path ∧ ∃ c ∈ path.toList, Text.isBlank c = false

/-- The choice of a settings file, if one is named on the command line and if not. -/
inductive Chooses (h : Host) (module : String) : Option FilePath → Option FilePath → Prop
  | named (path : FilePath) : Chooses h module (some path) (some path)
  | environment {path : String} (hset : NamedByVariable h module path) :
      Chooses h module none (some (.ofText path))
  | user {path : FilePath} {entry : FileEntry} (hunset : ∀ path, ¬ NamedByVariable h module path)
      (hpath : UserFile h module path) (hthere : h.find path = .ok entry) :
      Chooses h module none (some path)
  | nothing (hunset : ∀ path, ¬ NamedByVariable h module path)
      (hmissing : ∀ path entry, UserFile h module path → h.find path ≠ .ok entry) :
      Chooses h module none none

/-- A field has the value that is given for it, and a default value if none is. -/
inductive Given {α : Type} (fields : Toml.Fields) (name : String) (default : α)
    (Says : Toml.Value → α → Prop) : α → Prop
  | said {v : Toml.Value} {x : α} (hgiven : fields.lookup name = some v) (hmeans : Says v x) :
      Given fields name default Says x
  | unsaid (habsent : fields.lookup name = none) : Given fields name default Says default

def SaysText (v : Toml.Value) (x : String) : Prop := v = .string x

def SaysPath (v : Toml.Value) (x : Option String) : Prop := ∃ path, v = .string path ∧ x = some path

/-- A value with fields, which are in order where they have no names. Names that mean nothing
may stand among them. -/
inductive HasFields (names : List String) : Toml.Value → Toml.Fields → Prop
  | table (entries : Toml.Fields) : HasFields names (.table entries) entries
  | array (items : List Toml.Value) : HasFields names (.array items) (names.zip items)
  | time (text : String) : HasFields names (.time text) []

def SaysLogging (v : Toml.Value) (l : LoggingSettings) : Prop :=
  ∃ fields, HasFields ["level", "file"] v fields ∧
    Given fields "level" "info" SaysText l.level ∧ Given fields "file" none SaysPath l.file

def SaysAssembly (v : Toml.Value) (a : AssemblySettings) : Prop :=
  ∃ fields, HasFields ["strict", "schema"] v fields ∧
    Given fields "strict" false (fun v x => v = .bool x) a.strict ∧
    Given fields "schema" none SaysPath a.schema

/-- The settings that nothing was said about. -/
def compiledSettings : Settings := ⟨⟨"info", none⟩, ⟨false, none⟩⟩

/-- The text is a document, and these are its settings. -/
def SaysSettings (text : String) (s : Settings) : Prop :=
  ∃ v fields, Toml.parse? text = some v ∧ HasFields ["logging", "merge"] v fields ∧
    Given fields "logging" compiledSettings.logging SaysLogging s.logging ∧
    Given fields "merge" compiledSettings.assembly SaysAssembly s.assembly

/-- What comes of a choice. -/
inductive Loaded (h : Host) :
    Option FilePath → Except SettingsError (Settings × SettingsSource) → Prop
  | defaults : Loaded h none (.ok (compiledSettings, .defaults))
  | missing {path : FilePath} (hmissing : ∀ entry, h.find path ≠ .ok entry) :
      Loaded h (some path) (.ok (compiledSettings, .missing path))
  | file {path : FilePath} {bytes : ByteArray} {text : String} {s : Settings}
      (hthere : h.find path = .ok (.file bytes)) (htext : String.fromUTF8? bytes = some text)
      (hmeans : SaysSettings text s) : Loaded h (some path) (.ok (s, .file path))
  | malformed {path : FilePath} {bytes : ByteArray} {text : String}
      (hthere : h.find path = .ok (.file bytes)) (htext : String.fromUTF8? bytes = some text)
      (hmeans : ∀ s, ¬ SaysSettings text s) : Loaded h (some path) (.error .malformed)
  | noText {path : FilePath} {bytes : ByteArray} (hthere : h.find path = .ok (.file bytes))
      (htext : String.fromUTF8? bytes = none) :
      Loaded h (some path) (.error (.unreadable path .notText))
  | directory {path : FilePath} (hthere : h.find path = .ok .directory) :
      Loaded h (some path) (.error (.unreadable path .isADirectory))
  | unreadable {path : FilePath} {fault : FileFault}
      (hthere : h.find path = .ok (.unreadable fault)) :
      Loaded h (some path) (.error (.unreadable path fault))

section Choice

variable {h : Host} {module : String} {named c : Option FilePath}

theorem namedByVariable_iff {path : String} :
    (h.environmentText? (settingsVariable module)).filter (!Text.allBlank ·) = some path ↔
      NamedByVariable h module path := by
  have hblank : Text.allBlank path = false ↔ ∃ c ∈ path.toList, Text.isBlank c = false := by
    rw [Text.allBlank, List.all_eq_false]
    simp only [Bool.not_eq_true]
  simp only [NamedByVariable, ← settingsVariable_eq_iff, Host.environmentText?,
    Option.filter_eq_some_iff, Option.bind_eq_some_iff, Bool.not_eq_true', hblank]
  constructor
  · rintro ⟨⟨bytes, hset, htext⟩, hfilled⟩
    exact ⟨_, bytes, rfl, hset, htext, hfilled⟩
  · rintro ⟨_, bytes, rfl, hset, htext, hfilled⟩
    exact ⟨⟨bytes, hset, htext⟩, hfilled⟩

theorem pathExists_iff {path : FilePath} :
    h.pathExists path = true ↔ ∃ entry, h.find path = .ok entry := by
  unfold Host.pathExists
  cases h.find path <;> simp

theorem chooses_chosen : Chooses h module named (chosenSettingsPath? h module named) := by
  unfold chosenSettingsPath?
  split
  · exact .named _
  · split
    · rename_i path hset
      exact .environment (namedByVariable_iff.mp hset)
    · rename_i hunset
      have hunset : ∀ path, ¬ NamedByVariable h module path := fun path hset => by
        rw [namedByVariable_iff.mpr hset] at hunset
        cases hunset
      cases hpath : (userSettingsPath? h module).filter h.pathExists with
      | some path =>
        obtain ⟨huser, hthere⟩ := Option.filter_eq_some_iff.mp hpath
        obtain ⟨entry, hthere⟩ := pathExists_iff.mp hthere
        exact .user hunset (userSettingsPath?_eq_some_iff.mp huser) hthere
      | none =>
        refine .nothing hunset fun path entry huser hthere => ?_
        rw [userSettingsPath?_eq_some_iff.mpr huser, Option.filter_eq_none_iff] at hpath
        exact hpath path rfl (pathExists_iff.mpr ⟨entry, hthere⟩)

theorem NamedByVariable.unique {path path' : String} (hset : NamedByVariable h module path)
    (hset' : NamedByVariable h module path') : path = path' :=
  Option.some.inj ((namedByVariable_iff.mpr hset).symm.trans (namedByVariable_iff.mpr hset'))

theorem UserFile.unique {path path' : FilePath} (hpath : UserFile h module path)
    (hpath' : UserFile h module path') : path = path' :=
  Option.some.inj ((userSettingsPath?_eq_some_iff.mpr hpath).symm.trans
    (userSettingsPath?_eq_some_iff.mpr hpath'))

theorem Chooses.unique {c' : Option FilePath} (hc : Chooses h module named c)
    (hc' : Chooses h module named c') : c = c' := by
  cases hc with
  | named => cases hc'; rfl
  | environment hset =>
    cases hc' with
    | environment hset' => rw [hset.unique hset']
    | user hunset => exact absurd hset (hunset _)
    | nothing hunset => exact absurd hset (hunset _)
  | user hunset hpath hthere =>
    cases hc' with
    | environment hset' => exact absurd hset' (hunset _)
    | user _ hpath' => rw [hpath.unique hpath']
    | nothing _ hmissing => exact absurd hthere (hmissing _ _ hpath)
  | nothing hunset hmissing =>
    cases hc' with
    | environment hset' => exact absurd hset' (hunset _)
    | user _ hpath' hthere' => exact absurd hthere' (hmissing _ _ hpath')
    | nothing => rfl

theorem chosen_eq_iff : chosenSettingsPath? h module named = c ↔ Chooses h module named c := by
  constructor
  · rintro rfl
    exact chooses_chosen
  · exact chooses_chosen.unique

end Choice

section Reading

variable {α : Type} {fields : Toml.Fields} {name : String}

theorem withDefault_eq_some_iff {default x : α} {read : Toml.Value → Option α}
    {Says : Toml.Value → α → Prop} (hread : ∀ v x, read v = some x ↔ Says v x) :
    fields.withDefault name default read = some x ↔ Given fields name default Says x := by
  unfold Toml.Fields.withDefault
  constructor
  · intro h
    split at h
    · rename_i habsent
      obtain rfl := Option.some.inj h
      exact .unsaid habsent
    · rename_i hgiven
      exact .said hgiven ((hread _ _).mp h)
  · rintro (⟨hgiven, hmeans⟩ | habsent)
    · rw [hgiven]
      exact (hread _ _).mpr hmeans
    · rw [habsent]

/-- A field that may be left out has nothing for its default. -/
theorem optional_eq_withDefault (read : Toml.Value → Option α) :
    fields.optional name read = fields.withDefault name none fun v => (read v).map some := rfl

theorem string?_eq_some_iff {v : Toml.Value} {x : String} :
    v.string? = some x ↔ SaysText v x := by
  unfold Toml.Value.string? SaysText
  cases v <;> simp

theorem map_string?_eq_some_iff {v : Toml.Value} {x : Option String} :
    v.string?.map some = some x ↔ SaysPath v x := by
  rw [Option.map_eq_some_iff]
  simp only [string?_eq_some_iff, SaysText, SaysPath, @eq_comm _ _ x]

theorem bool?_eq_some_iff {v : Toml.Value} {x : Bool} : v.bool? = some x ↔ v = .bool x := by
  unfold Toml.Value.bool?
  cases v <;> simp

theorem fields?_eq_some_iff {names : List String} {v : Toml.Value} {fields : Toml.Fields} :
    v.fields? names false = some fields ↔ HasFields names v fields := by
  constructor
  · intro h
    cases v <;> cases h
    · exact .time _
    · exact .array _
    · exact .table _
  · rintro (_ | _ | _) <;> rfl

theorem readLogging_eq_some_iff {v : Toml.Value} {l : LoggingSettings} :
    Settings.readLogging v = some l ↔ SaysLogging v l := by
  obtain ⟨level, file⟩ := l
  simp only [Settings.readLogging, Option.bind_eq_bind, Option.bind_eq_some_iff,
    fields?_eq_some_iff, optional_eq_withDefault,
    withDefault_eq_some_iff fun _ _ => string?_eq_some_iff,
    withDefault_eq_some_iff fun _ _ => map_string?_eq_some_iff, Option.some.injEq,
    LoggingSettings.mk.injEq, SaysLogging]
  constructor
  · rintro ⟨fields, hfields, _, hlevel, _, hfile, rfl, rfl⟩
    exact ⟨fields, hfields, hlevel, hfile⟩
  · rintro ⟨fields, hfields, hlevel, hfile⟩
    exact ⟨fields, hfields, level, hlevel, file, hfile, rfl, rfl⟩

theorem readAssembly_eq_some_iff {v : Toml.Value} {a : AssemblySettings} :
    Settings.readAssembly v = some a ↔ SaysAssembly v a := by
  obtain ⟨strict, schema⟩ := a
  simp only [Settings.readAssembly, Option.bind_eq_bind, Option.bind_eq_some_iff,
    fields?_eq_some_iff, optional_eq_withDefault,
    withDefault_eq_some_iff fun _ _ => bool?_eq_some_iff,
    withDefault_eq_some_iff fun _ _ => map_string?_eq_some_iff, Option.some.injEq,
    AssemblySettings.mk.injEq, SaysAssembly]
  constructor
  · rintro ⟨fields, hfields, _, hstrict, _, hschema, rfl, rfl⟩
    exact ⟨fields, hfields, hstrict, hschema⟩
  · rintro ⟨fields, hfields, hstrict, hschema⟩
    exact ⟨fields, hfields, strict, hstrict, schema, hschema, rfl, rfl⟩

theorem ofToml?_eq_some_iff {text : String} {s : Settings} :
    (Toml.parse? text).bind Settings.ofToml? = some s ↔ SaysSettings text s := by
  obtain ⟨logging, assembly⟩ := s
  simp only [Settings.ofToml?, Option.bind_eq_bind, Option.bind_eq_some_iff, fields?_eq_some_iff,
    withDefault_eq_some_iff fun _ _ => readLogging_eq_some_iff,
    withDefault_eq_some_iff fun _ _ => readAssembly_eq_some_iff, Option.some.injEq,
    Settings.mk.injEq, SaysSettings]
  constructor
  · rintro ⟨v, hparse, fields, hfields, _, hlogging, _, hassembly, rfl, rfl⟩
    exact ⟨v, fields, hparse, hfields, hlogging, hassembly⟩
  · rintro ⟨v, fields, hparse, hfields, hlogging, hassembly⟩
    exact ⟨v, hparse, fields, hfields, logging, hlogging, assembly, hassembly, rfl, rfl⟩

/-- A text says settings, or it is malformed. -/
theorem parse_cases (text : String) :
    (∃ s, Settings.parse text = .ok s ∧ SaysSettings text s) ∨
      Settings.parse text = .error .malformed ∧ ∀ s, ¬ SaysSettings text s := by
  unfold Settings.parse
  cases hparse : (Toml.parse? text).bind Settings.ofToml? with
  | some s => exact .inl ⟨s, rfl, ofToml?_eq_some_iff.mp hparse⟩
  | none =>
    refine .inr ⟨rfl, fun s hmeans => ?_⟩
    rw [ofToml?_eq_some_iff.mpr hmeans] at hparse
    cases hparse

theorem SaysSettings.unique {text : String} {s s' : Settings} (hs : SaysSettings text s)
    (hs' : SaysSettings text s') : s = s' :=
  Option.some.inj ((ofToml?_eq_some_iff.mpr hs).symm.trans (ofToml?_eq_some_iff.mpr hs'))

end Reading

section Loading

variable {h : Host} {module : String} {named : Option FilePath}

theorem load_of_none (hchosen : chosenSettingsPath? h module named = none) :
    Settings.load h module named = .ok (compiledSettings, .defaults) := by
  rw [Settings.load, hchosen]
  rfl

theorem load_of_missing {path : FilePath}
    (hchosen : chosenSettingsPath? h module named = some path)
    (hmissing : ∀ entry, h.find path ≠ .ok entry) :
    Settings.load h module named = .ok (compiledSettings, .missing path) := by
  have hexists : ¬ h.pathExists path = true := fun hexists =>
    let ⟨entry, hthere⟩ := pathExists_iff.mp hexists
    hmissing entry hthere
  rw [Settings.load, hchosen]
  exact if_neg hexists

theorem load_of_there {path : FilePath} {entry : FileEntry}
    (hchosen : chosenSettingsPath? h module named = some path)
    (hthere : h.find path = .ok entry) :
    Settings.load h module named =
      match FileEntry.text (.ok entry) with
      | .error fault => .error (.unreadable path fault)
      | .ok text => (Settings.parse text).map (·, .file path) := by
  rw [Settings.load, hchosen]
  dsimp only
  rw [if_pos (pathExists_iff.mpr ⟨entry, hthere⟩), Settings.ofFile, Host.readText, hthere]
  cases FileEntry.text (.ok entry) <;> rfl

theorem load_of_text {path : FilePath} {bytes : ByteArray} {text : String}
    (hchosen : chosenSettingsPath? h module named = some path)
    (hthere : h.find path = .ok (.file bytes)) (htext : String.fromUTF8? bytes = some text) :
    Settings.load h module named = (Settings.parse text).map (·, .file path) := by
  rw [load_of_there hchosen hthere, FileEntry.text, textOf, htext]

theorem loaded_of_chosen :
    Loaded h (chosenSettingsPath? h module named) (Settings.load h module named) := by
  cases hchosen : chosenSettingsPath? h module named with
  | none =>
    rw [load_of_none hchosen]
    exact .defaults
  | some path =>
    cases hthere : h.find path with
    | error fault =>
      have hmissing : ∀ entry, h.find path ≠ .ok entry := by
        rw [hthere]
        exact nofun
      rw [load_of_missing hchosen hmissing]
      exact .missing hmissing
    | ok entry =>
      cases entry with
      | directory =>
        rw [load_of_there hchosen hthere]
        exact .directory hthere
      | unreadable fault =>
        rw [load_of_there hchosen hthere]
        exact .unreadable hthere
      | file bytes =>
        cases htext : String.fromUTF8? bytes with
        | none =>
          rw [load_of_there hchosen hthere, FileEntry.text, textOf, htext]
          exact .noText hthere htext
        | some text =>
          rw [load_of_text hchosen hthere htext]
          obtain ⟨s, hparse, hmeans⟩ | ⟨hparse, hmeans⟩ := parse_cases text
          · rw [hparse]
            exact .file hthere htext hmeans
          · rw [hparse]
            exact .malformed hthere htext hmeans

theorem exists_loaded {r : Except SettingsError (Settings × SettingsSource)}
    (hload : Settings.load h module named = r) : ∃ c, Chooses h module named c ∧ Loaded h c r :=
  ⟨_, chooses_chosen, hload ▸ loaded_of_chosen⟩

/-- What comes of the choice is what is loaded. -/
theorem Loaded.load_eq {c : Option FilePath}
    {r : Except SettingsError (Settings × SettingsSource)} (hr : Loaded h c r)
    (hchosen : chosenSettingsPath? h module named = c) : Settings.load h module named = r := by
  cases hr with
  | defaults => exact load_of_none hchosen
  | missing hmissing => exact load_of_missing hchosen hmissing
  | directory hthere => exact load_of_there hchosen hthere
  | unreadable hthere => exact load_of_there hchosen hthere
  | noText hthere htext => rw [load_of_there hchosen hthere, FileEntry.text, textOf, htext]
  | @file path _ text s hthere htext hmeans =>
    rw [load_of_text hchosen hthere htext]
    obtain ⟨s', hparse, hmeans'⟩ | ⟨-, hnone⟩ := parse_cases text
    · rw [hparse, hmeans.unique hmeans']
      rfl
    · exact absurd hmeans (hnone s)
  | @malformed _ _ text hthere htext hnone =>
    rw [load_of_text hchosen hthere htext]
    obtain ⟨s, -, hmeans⟩ | ⟨hparse, -⟩ := parse_cases text
    · exact absurd hmeans (hnone s)
    · rw [hparse]
      rfl

/-- Whatever is at other paths. -/
theorem Loaded.congr {h' : Host} {c : Option FilePath}
    {r : Except SettingsError (Settings × SettingsSource)} (hr : Loaded h c r)
    (hfile : ∀ path, c = some path → h'.find path = h.find path) : Loaded h' c r := by
  cases hr with
  | defaults => exact .defaults
  | missing hmissing => exact .missing (by rwa [hfile _ rfl])
  | file hthere htext hmeans => exact .file ((hfile _ rfl).trans hthere) htext hmeans
  | malformed hthere htext hmeans => exact .malformed ((hfile _ rfl).trans hthere) htext hmeans
  | noText hthere htext => exact .noText ((hfile _ rfl).trans hthere) htext
  | directory hthere => exact .directory ((hfile _ rfl).trans hthere)
  | unreadable hthere => exact .unreadable ((hfile _ rfl).trans hthere)

/-- What is there cannot be used as settings. -/
def Unusable (entry : FileEntry) : Prop :=
  ∀ bytes text s, entry = .file bytes → String.fromUTF8? bytes = some text → ¬ SaysSettings text s

/-- Nothing but a file that is there and cannot be used makes loading fail. -/
theorem Loaded.error_iff {c : Option FilePath}
    {r : Except SettingsError (Settings × SettingsSource)} (hr : Loaded h c r) :
    (∃ e, r = .error e) ↔
      ∃ path entry, c = some path ∧ h.find path = .ok entry ∧ Unusable entry := by
  cases hr with
  | defaults => simp
  | missing hmissing => simp [hmissing]
  | @file _ bytes text s hthere htext hmeans =>
    refine iff_of_false (by simp) ?_
    rintro ⟨_, entry, ⟨⟩, hthere', hunusable⟩
    obtain rfl := Except.ok.inj (hthere.symm.trans hthere')
    exact hunusable bytes text s rfl htext hmeans
  | malformed hthere htext hmeans =>
    refine iff_of_true ⟨_, rfl⟩ ⟨_, _, rfl, hthere, ?_⟩
    rintro _ text s ⟨⟩ htext'
    obtain rfl := Option.some.inj (htext.symm.trans htext')
    exact hmeans s
  | noText hthere htext =>
    refine iff_of_true ⟨_, rfl⟩ ⟨_, _, rfl, hthere, ?_⟩
    rintro _ text s ⟨⟩ htext'
    rw [htext] at htext'
    cases htext'
  | directory hthere => exact iff_of_true ⟨_, rfl⟩ ⟨_, _, rfl, hthere, nofun⟩
  | unreadable hthere => exact iff_of_true ⟨_, rfl⟩ ⟨_, _, rfl, hthere, nofun⟩

theorem SettingsError.prefix_message_unreadable (path : FilePath) (fault : FileFault) :
    "Configuration error: ".toList <+: (SettingsError.unreadable path fault).message.toList := by
  have hmessage : (SettingsError.unreadable path fault).message
      = "Configuration error: Read TOML failed (" ++ path.display ++ "): " ++ fault.message := rfl
  have hstart : "Configuration error: ".toList <+:
      "Configuration error: Read TOML failed (".toList := by decide
  rw [hmessage, String.toList_append, String.toList_append, String.toList_append,
    List.append_assoc, List.append_assoc]
  exact hstart.trans (List.prefix_append _ _)

theorem SettingsError.prefix_message_malformed :
    "Configuration error: ".toList <+: SettingsError.malformed.message.toList := by
  decide

/-- An error of loading tells of the configuration. -/
theorem Loaded.prefix_message {c : Option FilePath} {e : SettingsError}
    (hr : Loaded h c (.error e)) : "Configuration error: ".toList <+: e.message.toList := by
  cases hr with
  | malformed => exact SettingsError.prefix_message_malformed
  | noText => exact SettingsError.prefix_message_unreadable _ _
  | directory => exact SettingsError.prefix_message_unreadable _ _
  | unreadable => exact SettingsError.prefix_message_unreadable _ _

end Loading

/-- What loading settings comes to, from the choice of their file on. -/
structure LoadsChosen (h : Host) (module : String) (named : Option FilePath) : Prop where
  chosen (c : Option FilePath) :
    chosenSettingsPath? h module named = c ↔ Chooses h module named c
  outcome (r : Except SettingsError (Settings × SettingsSource)) :
    Settings.load h module named = r ↔ Loaded h (chosenSettingsPath? h module named) r
  /-- Loading fails on a file that is there, ... -/
  fails : (∃ e, Settings.load h module named = .error e) ↔
    ∃ path entry, chosenSettingsPath? h module named = some path ∧ h.find path = .ok entry ∧
      Unusable entry
  /-- ... with an error of the configuration. -/
  configuration (e : SettingsError) (hfail : Settings.load h module named = .error e) :
    "Configuration error: ".toList <+: e.message.toList
  /-- A file is missing only when it was asked for. -/
  missing (s : Settings) (path : FilePath)
    (hload : Settings.load h module named = .ok (s, .missing path)) :
    named = some path ∨
      named = none ∧ ∃ text, path = .ofText text ∧ NamedByVariable h module text
  defaults (s : Settings) (source : SettingsSource)
    (hload : Settings.load h module named = .ok (s, source)) (hfile : ∀ path, source ≠ .file path) :
    s = compiledSettings
  /-- Another host, module and command line with the same choice load the same. -/
  independent (h' : Host) (module' : String) (named' : Option FilePath)
    (hchoice : chosenSettingsPath? h' module' named' = chosenSettingsPath? h module named)
    (hfile : ∀ path, chosenSettingsPath? h module named = some path → h'.find path = h.find path) :
    Settings.load h' module' named' = Settings.load h module named
  logged : (Settings.loadLogged h module named).result = (Settings.load h module named).map (·.1)

theorem loadsChosen (h : Host) (module : String) (named : Option FilePath) :
    LoadsChosen h module named where
  chosen _ := chosen_eq_iff
  outcome r := by
    constructor
    · rintro rfl
      exact loaded_of_chosen
    · exact fun hr => hr.load_eq rfl
  fails := loaded_of_chosen.error_iff
  configuration e hfail := by
    obtain ⟨c, -, hloaded⟩ := exists_loaded hfail
    exact hloaded.prefix_message
  missing s path hload := by
    obtain ⟨c, hc, hloaded⟩ := exists_loaded hload
    cases hloaded with
    | missing hmissing =>
      cases hc with
      | named => exact .inl rfl
      | environment hset => exact .inr ⟨rfl, _, rfl, hset⟩
      | user _ _ hthere => exact absurd hthere (hmissing _)
  defaults s source hload hfile := by
    obtain ⟨c, -, hloaded⟩ := exists_loaded hload
    cases hloaded with
    | defaults => rfl
    | missing => rfl
    | file => exact absurd rfl (hfile _)
  independent h' module' named' hchoice hfile :=
    (loaded_of_chosen.congr hfile).load_eq hchoice
  logged := by
    unfold Settings.loadLogged
    cases Settings.load h module named <;> rfl

end CatalogAssembly
