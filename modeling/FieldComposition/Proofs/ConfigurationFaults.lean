import FieldComposition.Configuration
import FieldComposition.Proofs.DocumentReading
import FieldComposition.Proofs.FallibleWalk
import FieldComposition.Proofs.ValuePaths
import FieldComposition.StandIn
import FieldComposition.Version

/-!
# What reading a configuration file ends in

Anything may stand in a document where the settings or the version of the program are looked for.
`Loads` tells by what stands there what loading the settings comes to. It ends in a fault that is
not reported exactly if an integer in the file has too many digits or something else stands for the
tools of a project file, and the version is declared without a fault unless there is such an integer
or something else stands for the project (`Configuration.load_spec`).
-/

namespace FieldComposition

open Toml

namespace Configuration

/-- The keys that lead to the settings in the document of a file. -/
def settingsKeys (path : Path) : List String :=
  if path.name = projectFile then ["tool", "fieldspread"] else ["expansion"]

/-- The document of a project file in which something else stands for the tools. -/
def IsBlocked (path : Path) (document : Toml.Table) : Prop :=
  path.name = projectFile ∧
    ∃ tools, (Toml.Value.table document).at? ["tool"] = some tools ∧ tools.isTable = false

/-- The table of the settings in the document of a file, or why there is none. -/
inductive SettingsIn (path : Path) (document : Toml.Table) :
    Except ConfigurationFault Toml.Table → Prop
  | written {entries : Toml.Table}
      (h : (Toml.Value.table document).at? (settingsKeys path) = some (.table entries)) :
      SettingsIn path document (.ok entries)
  | missing (h : (Toml.Value.table document).at? (settingsKeys path) = none)
      (hway : ¬IsBlocked path document) : SettingsIn path document (.ok [])
  | notATable {v : Toml.Value}
      (h : (Toml.Value.table document).at? (settingsKeys path) = some v) (hv : v.isTable = false) :
      SettingsIn path document (.error (.notATable path))
  | blocked (h : IsBlocked path document) :
      SettingsIn path document (.error (.toolsNotATable path))

/-- What comes of loading the settings in a file with a text, with a dialect that the environment
asks for. -/
inductive Loads (lib : Libraries) (path : Path) (text : String) (dialect : Option String) :
    Except ConfigurationFault Settings → Prop
  | malformed (h : parse text = .error .malformed) :
      Loads lib path text dialect (.error (.unreadable path))
  | overlong {digits : Nat} (h : parse text = .error (.overlong digits)) :
      Loads lib path text dialect (.error (.overlongInteger path digits))
  | noTable {document : Toml.Table} {fault : ConfigurationFault} (h : parse text = .ok document)
      (hfault : SettingsIn path document (.error fault)) :
      Loads lib path text dialect (.error fault)
  | made {document entries : Toml.Table} {settings : Settings} (h : parse text = .ok document)
      (hentries : SettingsIn path document (.ok entries))
      (hmade : lib.makeSettings (rawValues entries dialect) = .ok settings) :
      Loads lib path text dialect (.ok settings)
  | refused {document entries : Toml.Table} {issues : List FieldIssue}
      (h : parse text = .ok document) (hentries : SettingsIn path document (.ok entries))
      (hrefused : lib.makeSettings (rawValues entries dialect) = .error issues) :
      Loads lib path text dialect (.error (.invalid (some path) issues
        (lib.describeIssues (rawValues entries dialect) issues)))

variable {lib : Libraries} {path : Path} {document : Toml.Table}

lemma settingsKeys_project (h : path.name = projectFile) :
    settingsKeys path = ["tool"] ++ ["fieldspread"] :=
  if_pos h

lemma settingsKeys_settings (h : path.name ≠ projectFile) : settingsKeys path = ["expansion"] :=
  if_neg h

lemma subtable?_eq (key : String) (t : Toml.Table) :
    subtable? key t = match (Toml.Value.table t).at? [key] with
      | none => some []
      | some (.table entries) => some entries
      | some _ => none := by
  rw [subtable?, Toml.Value.at?_table_cons]
  cases t.get? key with
  | none => rfl
  | some v => cases v <;> simp

/-- The last step to the settings, from a table in which they may stand. -/
lemma settingsIn_of_subtable? {key : String} {t : Toml.Table} (hway : ¬IsBlocked path document)
    (h : (Toml.Value.table document).at? (settingsKeys path) = (Toml.Value.table t).at? [key]) :
    SettingsIn path document (match subtable? key t with
      | some entries => .ok entries
      | none => .error (.notATable path)) := by
  rw [subtable?_eq, ← h]
  cases hvalue : (Toml.Value.table document).at? (settingsKeys path) with
  | none => exact .missing hvalue hway
  | some v =>
    cases v with
    | table entries => exact .written hvalue
    | _ => exact .notATable hvalue rfl

lemma settingsIn_settingsTable (path : Path) (document : Toml.Table) :
    SettingsIn path document (settingsTable path document) := by
  rw [settingsTable]
  by_cases hname : path.name = projectFile
  · have hkeys : (Toml.Value.table document).at? (settingsKeys path) =
        ((Toml.Value.table document).at? ["tool"]).bind (·.at? ["fieldspread"]) := by
      rw [settingsKeys_project hname, Toml.Value.at?_append]
    rw [if_pos hname, subtable?_eq "tool"]
    cases htools : (Toml.Value.table document).at? ["tool"] with
    | none =>
      rw [htools] at hkeys
      exact .missing hkeys (by simp [IsBlocked, htools])
    | some tools =>
      rw [htools] at hkeys
      cases tools with
      | table tools =>
        exact settingsIn_of_subtable? (by simp [IsBlocked, htools, Toml.Value.isTable]) hkeys
      | _ => exact .blocked ⟨hname, _, htools, rfl⟩
  · rw [if_neg hname]
    exact settingsIn_of_subtable? (fun h => hname h.1) (by rw [settingsKeys_settings hname])

lemma IsBlocked.at?_eq_none (h : IsBlocked path document) :
    (Toml.Value.table document).at? (settingsKeys path) = none := by
  obtain ⟨hname, tools, htools, hother⟩ := h
  rw [settingsKeys_project hname, Toml.Value.at?_append, htools]
  exact Toml.Value.at?_cons_of_not_isTable hother "fieldspread" []

/-- Where settings are found, nothing else stands for the tools. -/
lemma SettingsIn.not_isBlocked {entries : Toml.Table} (h : SettingsIn path document (.ok entries)) :
    ¬IsBlocked path document := by
  intro hblocked
  cases h with
  | written hvalue =>
    rw [hblocked.at?_eq_none] at hvalue
    cases hvalue
  | missing _ hway => exact hway hblocked

/-- A document tells in one way only what its settings are. -/
lemma settingsTable_eq_iff {result : Except ConfigurationFault Toml.Table} :
    settingsTable path document = result ↔ SettingsIn path document result := by
  refine ⟨fun h => h ▸ settingsIn_settingsTable path document, fun h => ?_⟩
  have hblocked : IsBlocked path document →
    (Toml.Value.table document).at? (settingsKeys path) = none := IsBlocked.at?_eq_none
  generalize settingsTable path document = other, settingsIn_settingsTable path document = hother
  cases h <;> cases hother <;> grind [Toml.Value.isTable]

lemma load_eq {w : Workspace} {text : String} (h : w.read path = .ok text)
    (useEnvironment : Bool) :
    load lib w (some path) useEnvironment = match tableOf path text with
      | .error fault => .error fault
      | .ok entries => makeSettings lib (some path)
          (rawValues entries (if useEnvironment then environmentDialect? w else none)) := by
  rw [load, source]
  dsimp only
  rw [h]
  dsimp only
  cases tableOf path text <;> rfl

lemma loads_iff {w : Workspace} {text : String} (h : w.read path = .ok text)
    {useEnvironment : Bool} {result : Except ConfigurationFault Settings} :
    load lib w (some path) useEnvironment = result ↔
      Loads lib path text (if useEnvironment then environmentDialect? w else none) result := by
  rw [load_eq h, tableOf]
  constructor
  · rintro rfl
    cases hparse : parse text with
    | ok document =>
      dsimp only
      cases htable : settingsTable path document with
      | error fault => exact .noTable hparse (settingsTable_eq_iff.mp htable)
      | ok entries =>
        have hentries := settingsTable_eq_iff.mp htable
        dsimp only
        rw [makeSettings]
        cases hmade : lib.makeSettings (rawValues entries
            (if useEnvironment then environmentDialect? w else none)) with
        | ok settings => exact .made hparse hentries hmade
        | error issues => exact .refused hparse hentries hmade
    | error fault =>
      cases fault with
      | malformed => exact .malformed hparse
      | overlong digits => exact .overlong hparse
  · intro hloads
    cases hloads with
    | malformed hparse => rw [hparse]
    | overlong hparse => rw [hparse]
    | noTable hparse hfault =>
      rw [hparse]
      dsimp only
      rw [settingsTable_eq_iff.mpr hfault]
    | made hparse hentries hmade =>
      rw [hparse]
      dsimp only
      rw [settingsTable_eq_iff.mpr hentries]
      dsimp only
      rw [makeSettings, hmade]
      rfl
    | refused hparse hentries hrefused =>
      rw [hparse]
      dsimp only
      rw [settingsTable_eq_iff.mpr hentries]
      dsimp only
      rw [makeSettings, hrefused]
      rfl

/-- A fault that goes unreported lies in an integer or in what stands for the tools. -/
lemma Loads.unreported_iff {text : String} {dialect : Option String}
    {result : Except ConfigurationFault Settings} (h : Loads lib path text dialect result) :
    (∃ fault, result = .error fault ∧ fault.isReported = false) ↔
      (∃ digits, parse text = .error (.overlong digits)) ∨
        ∃ document, parse text = .ok document ∧ IsBlocked path document := by
  cases h with
  | malformed hparse => simp [hparse, ConfigurationFault.isReported]
  | overlong hparse => simp [hparse, ConfigurationFault.isReported]
  | noTable hparse hfault =>
    cases hfault with
    | notATable hvalue hother =>
      have hway : ¬IsBlocked path _ := fun hblocked => by
        rw [hblocked.at?_eq_none] at hvalue
        cases hvalue
      simp [hparse, hway, ConfigurationFault.isReported]
    | blocked hblocked => simp [hparse, hblocked, ConfigurationFault.isReported]
  | made hparse hentries => simp [hparse, hentries.not_isBlocked]
  | refused hparse hentries =>
    simp [hparse, hentries.not_isBlocked, ConfigurationFault.isReported]

/-- Settings that are loaded pass the checks of their fields, wherever they come from. -/
theorem isValid_of_load (hlib : lib.ChecksSettings) {w : Workspace} {path : Option Path}
    {useEnvironment : Bool} {settings : Settings}
    (h : load lib w path useEnvironment = .ok settings) : settings.IsValid := by
  obtain ⟨found, -, hmade⟩ := bind_eq_ok_iff.mp h
  change makeSettings lib found.1 _ = _ at hmade
  rw [makeSettings] at hmade
  cases hsettings : lib.makeSettings (rawValues found.2
      (if useEnvironment then environmentDialect? w else none)) with
  | error issues =>
    rw [hsettings] at hmade
    exact absurd hmade nofun
  | ok made =>
    rw [hsettings] at hmade
    exact Except.ok.inj hmade ▸ hlib _ _ hsettings

end Configuration

namespace Version

/-- A document declares a value as the version of this program. -/
def IsDeclaredIn (document : Toml.Table) (version : Toml.Value) : Prop :=
  (Toml.Value.table document).at? ["project", "name"] = some (.string distribution) ∧
    (Toml.Value.table document).at? ["project", "version"] = some version

lemma declared_eq_error_iff {text : String} {fault : Fault} :
    declared text = .error fault ↔
      (∃ digits, parse text = .error (.overlong digits) ∧ fault = .overlongInteger digits) ∨
      ∃ document project, parse text = .ok document ∧
        (Toml.Value.table document).at? ["project"] = some project ∧ project.isTable = false ∧
        fault = .projectNotATable := by
  rw [declared]
  cases hparse : parse text with
  | error cause => cases cause <;> simp [eq_comm (a := fault)]
  | ok document =>
    dsimp only
    cases hproject : document.get? "project" with
    | none => simp [hproject]
    | some project =>
      cases project with
      | table project =>
        dsimp only
        split <;> simp [hproject, Toml.Value.isTable]
      | _ => simp [hproject, Toml.Value.isTable, eq_comm (a := fault)]

lemma declared_eq_some_iff {text : String} {version : Toml.Value} :
    declared text = .ok (some version) ↔
      ∃ document, parse text = .ok document ∧ IsDeclaredIn document version := by
  rw [declared]
  cases hparse : parse text with
  | error cause => cases cause <;> simp
  | ok document =>
    dsimp only
    cases hproject : document.get? "project" with
    | none => simp [IsDeclaredIn, hproject]
    | some project =>
      cases project with
      | table project =>
        dsimp only
        split <;> rename_i hname
        · simp [IsDeclaredIn, hproject, hname]
        · have hother : Toml.Table.get? project "name" ≠ some (.string distribution) :=
            hname distribution
          simp [IsDeclaredIn, hproject, hother]
      | _ => simp [IsDeclaredIn, hproject, Toml.Value.at?]

end Version

namespace Configuration

/-- The settings and the declared version of a file that can be read, and the faults that loading
and declaring them end in. Whatever stands in the file, a fault of loading goes unreported for two
reasons only; the version is what the file has for it, also if that is no string. -/
theorem load_spec (lib : Libraries) {w : Workspace} {path : Path} {text : String}
    (h : w.read path = .ok text) (useEnvironment : Bool) :
    (∀ result, load lib w (some path) useEnvironment = result ↔
      Loads lib path text (if useEnvironment then environmentDialect? w else none) result) ∧
    (find? w ⟨false, []⟩ = some path →
      load lib w none useEnvironment = load lib w (some path) useEnvironment) ∧
    ((∃ fault, load lib w (some path) useEnvironment = .error fault ∧ fault.isReported = false) ↔
      (∃ digits, parse text = .error (.overlong digits)) ∨
        ∃ document, parse text = .ok document ∧ IsBlocked path document) ∧
    (∀ fault, Version.declared text = .error fault ↔
      (∃ digits, parse text = .error (.overlong digits) ∧ fault = .overlongInteger digits) ∨
        ∃ document project, parse text = .ok document ∧
          (Toml.Value.table document).at? ["project"] = some project ∧ project.isTable = false ∧
          fault = .projectNotATable) ∧
    (∀ version, Version.declared text = .ok (some version) ↔
      ∃ document, parse text = .ok document ∧ Version.IsDeclaredIn document version) ∧
    ∀ digits, parse text = .error (.overlong digits) →
      maxDigits < digits ∧ digits ≤ text.toList.length := by
  refine ⟨fun result => loads_iff h, fun hfind => ?_, ((loads_iff h).mp rfl).unreported_iff,
    fun fault => Version.declared_eq_error_iff, fun version => Version.declared_eq_some_iff,
    fun digits => lt_and_le_of_parse_eq_overlong⟩
  rw [load, load, source, source, hfind]

/-- A project file with a number for the tools and a number for the version. -/
theorem load_spec_numbers :
    let text := "tool = 1\nproject.name = \"fieldspread\"\nproject.version = 1"
    let path : Path := ⟨false, ["pyproject.toml"]⟩
    let w : Workspace := { tree := { files := [(path.parts, text)] } }
    w.read path = .ok text ∧
      (∃ fault, load StandIn.libraries w (some path) true = .error fault ∧
        fault.isReported = false) ∧
      Version.declared text = .ok (some (.integer 1)) := by
  intro text path w
  have hread : w.read path = .ok text := by cbv
  obtain ⟨_, _, hunreported, _, hdeclared, _⟩ := load_spec StandIn.libraries hread true
  have hparse : parse text = .ok [("tool", .integer 1),
      ("project", .table [("name", .string "fieldspread"), ("version", .integer 1)])] := by cbv
  exact ⟨hread, hunreported.mpr (.inr ⟨_, hparse, rfl, .integer 1, rfl, rfl⟩),
    (hdeclared _).mpr ⟨_, hparse, rfl, rfl⟩⟩

/-- A number for the tools of a project file ends loading with a fault that is not reported. -/
theorem not_isReported_tools :
    let path : Path := ⟨false, ["pyproject.toml"]⟩
    let w : Workspace := { tree := { files := [(path.parts, "tool = 1")] } }
    w.read path = .ok "tool = 1" ∧ ∀ lib,
      ∃ fault, load lib w (some path) true = .error fault ∧ fault.isReported = false := by
  intro path w
  exact ⟨by cbv, fun lib => ⟨.toolsNotATable path, by cbv, rfl⟩⟩

end Configuration

end FieldComposition
