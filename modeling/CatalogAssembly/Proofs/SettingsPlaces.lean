import CatalogAssembly.Settings.Source

/-!
# Where settings may be

A module has a variable that may name its settings file, and the user has a file for each module.
`VariableOf` spells the name of the variable and `UserFile` the path of the file, from the
variables that say where the user keeps settings: `XDG_CONFIG_HOME` counts when it is an absolute
path, `HOME` when it is not empty, and the home of the account when neither does. Paths are spelled
out in bytes. The places that are looked at are these and no others: `settingsVariable_eq_iff` and
`userSettingsPath?_eq_some_iff`.
-/
namespace CatalogAssembly

section Variable

/-- Marks in front of a text, as many as there are, and what is left of it. -/
theorem dropLeading_eq_iff {mark cs rest : List Char} {fuel : Nat} (hmark : mark ≠ [])
    (hfuel : cs.length ≤ fuel) :
    dropLeading mark fuel cs = rest ↔
      (∃ marks, cs = (List.replicate marks mark).flatten ++ rest) ∧ ¬ mark <+: rest := by
  induction fuel generalizing cs with
  | zero =>
    obtain rfl := List.length_eq_zero_iff.mp (Nat.le_zero.mp hfuel)
    constructor
    · rintro rfl
      exact ⟨⟨0, rfl⟩, fun hpre => hmark (List.prefix_nil.mp hpre)⟩
    · rintro ⟨⟨marks, happend⟩, -⟩
      exact (List.append_eq_nil_iff.mp happend.symm).2.symm
  | succ fuel ih =>
    rw [dropLeading]
    split
    · rename_i hpre
      obtain ⟨others, rfl⟩ := List.isPrefixOf_iff_prefix.mp hpre
      have hlength : others.length ≤ fuel := by
        have hpos := List.length_pos_iff.mpr hmark
        rw [List.length_append] at hfuel
        omega
      rw [List.drop_left, ih hlength]
      refine and_congr_left fun hrest => ⟨?_, ?_⟩
      · rintro ⟨marks, rfl⟩
        exact ⟨marks + 1, by rw [List.replicate_succ, List.flatten_cons, List.append_assoc]⟩
      · rintro ⟨marks, happend⟩
        cases marks with
        | zero => exact absurd ⟨others, happend⟩ hrest
        | succ marks =>
          rw [List.replicate_succ, List.flatten_cons, List.append_assoc] at happend
          exact ⟨marks, List.append_cancel_left happend⟩
    · rename_i hpre
      have hpre : ¬ mark <+: cs := fun h => hpre (List.isPrefixOf_iff_prefix.mpr h)
      constructor
      · rintro rfl
        exact ⟨⟨0, rfl⟩, hpre⟩
      · rintro ⟨⟨marks, rfl⟩, -⟩
        cases marks with
        | zero => rfl
        | succ marks =>
          rw [List.replicate_succ, List.flatten_cons, List.append_assoc] at hpre
          exact absurd (List.prefix_append _ _) hpre

/-- The module's name without the marks in front of it, in capitals and with low lines for its
hyphens, makes the name of its variable. -/
def VariableOf (module name : String) : Prop :=
  ∃ marks rest, module.toList = (List.replicate marks "wkmp-".toList).flatten ++ rest ∧
    ¬ "wkmp-".toList <+: rest ∧
    name = "WKMP_" ++ Text.upper (String.ofList (rest.map fun c => if c = '-' then '_' else c))
      ++ "_CONFIG"

theorem settingsVariable_eq_iff {module name : String} :
    settingsVariable module = name ↔ VariableOf module name := by
  have hmark : "wkmp-".toList ≠ [] := by decide
  constructor
  · rintro rfl
    obtain ⟨⟨marks, hmodule⟩, hrest⟩ :=
      (dropLeading_eq_iff hmark (Nat.le_refl module.toList.length)).mp rfl
    exact ⟨marks, _, hmodule, hrest, rfl⟩
  · rintro ⟨marks, rest, hmodule, hrest, rfl⟩
    have hdrop := (dropLeading_eq_iff hmark (Nat.le_refl module.toList.length)).mpr
      ⟨⟨marks, hmodule⟩, hrest⟩
    rw [settingsVariable, hdrop]

example : settingsVariable "wkmp-audio-ingest" = "WKMP_AUDIO_INGEST_CONFIG" := by decide +kernel

end Variable

namespace FilePath

/-- The path begins with a slash. -/
def Absolute (p : FilePath) : Prop := ∃ rest, p.bytes.data.toList = 0x2F :: rest

/-- A path with another one behind it. -/
inductive Joined (base path : FilePath) : FilePath → Prop
  | alone (habsolute : path.Absolute) : Joined base path path
  | behind (hrelative : ¬ path.Absolute)
      (hend : ∀ front last, base.bytes.data.toList = front ++ [last] → last = 0x2F) :
      Joined base path ⟨base.bytes ++ path.bytes⟩
  | apart {front : List UInt8} {last : UInt8} (hrelative : ¬ path.Absolute)
      (hend : base.bytes.data.toList = front ++ [last]) (hlast : last ≠ 0x2F) :
      Joined base path ⟨base.bytes.push 0x2F ++ path.bytes⟩

theorem isAbsolute_iff {p : FilePath} : p.isAbsolute = true ↔ p.Absolute := by
  rw [isAbsolute, decide_eq_true_iff, ← Array.getElem?_toList, Absolute, ← List.head?_eq_getElem?,
    List.head?_eq_some_iff]
  rfl

theorem joined_join (base path : FilePath) : Joined base path (base.join path) := by
  by_cases habsolute : path.Absolute
  · rw [join, isAbsolute_iff.mpr habsolute, Bool.true_or, if_pos rfl]
    exact .alone habsolute
  · have hrelative := Bool.eq_false_iff.mpr fun h => habsolute (isAbsolute_iff.mp h)
    rw [join, hrelative, Bool.false_or]
    cases hlast : base.bytes.data.back? with
    | none =>
      have hempty : base.bytes = .empty := ByteArray.ext (Array.back?_eq_none_iff.mp hlast)
      have hpath : path = ⟨base.bytes ++ path.bytes⟩ := by rw [hempty, ByteArray.empty_append]
      have hjoined : Joined base path ⟨base.bytes ++ path.bytes⟩ := by
        refine .behind habsolute fun front last hend => ?_
        rw [hempty] at hend
        simp at hend
      rw [← hpath] at hjoined
      rwa [hempty, if_pos (show ByteArray.empty.isEmpty = true from rfl)]
    | some last =>
      obtain ⟨front, hend⟩ := List.getLast?_eq_some_iff.mp ((Array.getLast?_toList _).trans hlast)
      have hfilled : base.bytes.isEmpty = false := by
        rw [ByteArray.isEmpty, beq_eq_false_iff_ne, ne_eq, ByteArray.size_eq_zero_iff]
        rintro hempty
        rw [hempty] at hend
        simp at hend
      rw [hfilled, if_neg Bool.false_ne_true]
      by_cases hslash : last = slash
      · rw [if_pos (congrArg some hslash)]
        refine .behind habsolute fun front' last' hend' => ?_
        have hlasts := List.append_inj_right' (hend.symm.trans hend') rfl
        rw [← List.singleton_inj.mp hlasts, hslash]
        rfl
      · rw [if_neg fun h => hslash (Option.some.inj h)]
        exact .apart habsolute hend hslash

theorem Joined.unique {base path joined joined' : FilePath} (h : Joined base path joined)
    (h' : Joined base path joined') : joined = joined' := by
  cases h with
  | alone habsolute =>
    cases h' with
    | alone => rfl
    | behind hrelative => exact absurd habsolute hrelative
    | apart hrelative => exact absurd habsolute hrelative
  | behind hrelative hend =>
    cases h' with
    | alone habsolute => exact absurd habsolute hrelative
    | behind => rfl
    | apart _ hend' hlast => exact absurd (hend _ _ hend') hlast
  | apart hrelative hend hlast =>
    cases h' with
    | alone habsolute => exact absurd habsolute hrelative
    | behind _ hend' => exact absurd (hend' _ _ hend) hlast
    | apart => rfl

theorem join_eq_iff {base path joined : FilePath} :
    base.join path = joined ↔ Joined base path joined := by
  constructor
  · rintro rfl
    exact joined_join base path
  · exact (joined_join base path).unique

end FilePath

section UserFile

open FilePath (Absolute Joined)

/-- The directory of the user's settings. -/
inductive UserDirectory (h : Host) : FilePath → Prop
  | settings {directory : FilePath} (hset : h.environment "XDG_CONFIG_HOME" = some directory.bytes)
      (habsolute : directory.Absolute) : UserDirectory h directory
  | home {home directory : FilePath}
      (hunset : ∀ p : FilePath, h.environment "XDG_CONFIG_HOME" = some p.bytes → ¬ p.Absolute)
      (hset : h.environment "HOME" = some home.bytes) (hfilled : home.bytes ≠ .empty)
      (hjoined : Joined home ".config" directory) : UserDirectory h directory
  | account {home directory : FilePath}
      (hunset : ∀ p : FilePath, h.environment "XDG_CONFIG_HOME" = some p.bytes → ¬ p.Absolute)
      (hhome : ∀ bytes, h.environment "HOME" = some bytes → bytes = .empty)
      (haccount : h.accountHome = some home) (hjoined : Joined home ".config" directory) :
      UserDirectory h directory

/-- The user's settings file of a module. -/
def UserFile (h : Host) (module : String) (path : FilePath) : Prop :=
  ∃ directory inner, UserDirectory h directory ∧ Joined directory "wkmp" inner ∧
    Joined inner (.ofText (module ++ ".toml")) path

variable {h : Host} {module : String} {directory path : FilePath}

theorem absolute_variable_iff {bytes? : Option ByteArray} {p : FilePath} :
    (bytes?.map FilePath.mk).filter FilePath.isAbsolute = some p ↔
      bytes? = some p.bytes ∧ p.Absolute := by
  rw [Option.filter_eq_some_iff, Option.map_eq_some_iff, FilePath.isAbsolute_iff]
  refine and_congr_left fun _ => ⟨?_, fun hset => ⟨p.bytes, hset, rfl⟩⟩
  rintro ⟨bytes, hset, rfl⟩
  exact hset

theorem filled_variable_iff {bytes? : Option ByteArray} {p : FilePath} :
    (bytes?.filter (¬ ·.isEmpty)).map FilePath.mk = some p ↔
      bytes? = some p.bytes ∧ p.bytes ≠ .empty := by
  have hempty (bytes : ByteArray) : bytes.isEmpty = true ↔ bytes = .empty := by
    rw [ByteArray.isEmpty, beq_iff_eq, ByteArray.size_eq_zero_iff]
  simp only [Option.map_eq_some_iff, Option.filter_eq_some_iff, decide_eq_true_eq, hempty]
  constructor
  · rintro ⟨bytes, hset, rfl⟩
    exact hset
  · exact fun hset => ⟨p.bytes, hset, rfl⟩

theorem userDirectory_of_configDirectory? (hdirectory : h.configDirectory? = some directory) :
    UserDirectory h directory := by
  unfold Host.configDirectory? at hdirectory
  split at hdirectory
  · rename_i hxdg
    obtain rfl := Option.some.inj hdirectory
    obtain ⟨hset, habsolute⟩ := absolute_variable_iff.mp hxdg
    exact .settings hset habsolute
  · rename_i hxdg
    have hunset (p : FilePath) (hset : h.environment "XDG_CONFIG_HOME" = some p.bytes) :
        ¬ p.Absolute := by
      intro habsolute
      rw [absolute_variable_iff.mpr ⟨hset, habsolute⟩] at hxdg
      cases hxdg
    split at hdirectory
    · rename_i home hhome
      obtain ⟨hset, hfilled⟩ := filled_variable_iff.mp hhome
      exact .home hunset hset hfilled (FilePath.join_eq_iff.mp (Option.some.inj hdirectory))
    · rename_i hhome
      obtain ⟨home, haccount, hjoined⟩ := Option.map_eq_some_iff.mp hdirectory
      refine .account hunset (fun bytes hset => ?_) haccount (FilePath.join_eq_iff.mp hjoined)
      refine Classical.not_not.mp fun hfilled => ?_
      rw [(filled_variable_iff (p := ⟨bytes⟩)).mpr ⟨hset, hfilled⟩] at hhome
      cases hhome

theorem UserDirectory.unique {directory' : FilePath} (hd : UserDirectory h directory)
    (hd' : UserDirectory h directory') : directory = directory' := by
  have hsome {p q : FilePath} {name : String} (hp : h.environment name = some p.bytes)
      (hq : h.environment name = some q.bytes) : p = q :=
    FilePath.ext (Option.some.inj (hp.symm.trans hq))
  cases hd with
  | settings hset habsolute =>
    cases hd' with
    | settings hset' => exact hsome hset hset'
    | home hunset => exact absurd habsolute (hunset _ hset)
    | account hunset => exact absurd habsolute (hunset _ hset)
  | home hunset hset hfilled hjoined =>
    cases hd' with
    | settings hset' habsolute => exact absurd habsolute (hunset _ hset')
    | home _ hset' _ hjoined' =>
      obtain rfl := hsome hset hset'
      exact hjoined.unique hjoined'
    | account _ hhome => exact absurd (hhome _ hset) hfilled
  | account hunset hhome haccount hjoined =>
    cases hd' with
    | settings hset' habsolute => exact absurd habsolute (hunset _ hset')
    | home _ hset' hfilled => exact absurd (hhome _ hset') hfilled
    | account _ _ haccount' hjoined' =>
      obtain rfl := Option.some.inj (haccount.symm.trans haccount')
      exact hjoined.unique hjoined'

theorem exists_configDirectory? (hd : UserDirectory h directory) :
    ∃ directory', h.configDirectory? = some directory' := by
  unfold Host.configDirectory?
  split
  · exact ⟨_, rfl⟩
  · rename_i hxdg
    split
    · exact ⟨_, rfl⟩
    · rename_i hhome
      cases hd with
      | settings hset habsolute =>
        rw [absolute_variable_iff.mpr ⟨hset, habsolute⟩] at hxdg
        cases hxdg
      | home _ hset hfilled =>
        rw [filled_variable_iff.mpr ⟨hset, hfilled⟩] at hhome
        cases hhome
      | account _ _ haccount => exact ⟨_, by rw [haccount, Option.map_some]⟩

theorem configDirectory?_eq_some_iff :
    h.configDirectory? = some directory ↔ UserDirectory h directory := by
  refine ⟨userDirectory_of_configDirectory?, fun hd => ?_⟩
  obtain ⟨directory', hdirectory⟩ := exists_configDirectory? hd
  rw [hdirectory, hd.unique (userDirectory_of_configDirectory? hdirectory)]

theorem userSettingsPath?_eq_some_iff :
    userSettingsPath? h module = some path ↔ UserFile h module path := by
  rw [userSettingsPath?, Option.map_eq_some_iff]
  constructor
  · rintro ⟨directory, hdirectory, hpath⟩
    exact ⟨directory, _, configDirectory?_eq_some_iff.mp hdirectory, FilePath.joined_join _ _,
      FilePath.join_eq_iff.mp hpath⟩
  · rintro ⟨directory, inner, hdirectory, hinner, hpath⟩
    refine ⟨directory, configDirectory?_eq_some_iff.mpr hdirectory, ?_⟩
    rw [FilePath.join_eq_iff.mpr hinner, FilePath.join_eq_iff.mpr hpath]

end UserFile

end CatalogAssembly
