import FieldComposition.Configuration
import FieldComposition.Proofs.DocumentLines

/-!
# The nearest configuration file

The search from a directory upwards ends at the nearest one that has a configuration file. A project
file counts by its text, in which the header of the settings has to occur; that is not to say that
it is a document with a table of settings. `Configuration.find?_nearest` tells where the two differ
along a way upwards, and by what statements a document has such a table.
-/

namespace FieldComposition

open Toml

namespace Text

lemma isSome_cutAtFirst?_iff {part : List Char} (hne : part ≠ []) (cs : List Char) :
    (cutAtFirst? part cs).isSome ↔ part <:+: cs := by
  induction cs with
  | nil => simp [cutAtFirst?, hne]
  | cons c cs ih =>
    rw [cutAtFirst?, List.infix_cons_iff, ← List.isPrefixOf_iff_prefix, ← ih]
    by_cases hbegins : part.isPrefixOf (c :: cs) <;> simp [hbegins]

lemma occursIn_iff (part cs : List Char) : occursIn part cs ↔ part <:+: cs := by
  by_cases hempty : part = []
  · simp [occursIn, hempty]
  · rw [← isSome_cutAtFirst?_iff hempty]
    simp [occursIn, hempty]

end Text

namespace Path

@[simp] lemma around_nil : around [] = [[]] :=
  rfl

/-- The directories around a place are the place and those around the directory that holds it. -/
lemma around_concat (parts : List String) (name : String) :
    around (parts ++ [name]) = (parts ++ [name]) :: around parts := by
  rw [around, around, List.length_append, List.length_singleton, List.range_succ_eq_map,
    List.map_cons, List.map_map]
  congr 1
  · exact List.take_of_length_le (by simp)
  · refine List.map_congr_left fun n _ => ?_
    have hlength : parts.length + 1 - (n + 1) = parts.length - n := by omega
    rw [Function.comp_apply, Nat.succ_eq_add_one, hlength]
    exact List.take_append_of_le_length (Nat.sub_le _ _)

lemma mem_around_iff {directory place : List String} :
    directory ∈ around place ↔ directory <+: place := by
  induction place using List.reverseRecOn with
  | nil => simp
  | append_singleton parts name ih =>
    rw [around_concat, List.mem_cons, ih, List.prefix_concat_iff]

end Path

namespace Configuration

/-- The configuration file of a directory: that of the settings or, without one, that of a project,
if its text counts. -/
inductive IsFileIn (tree : FileTree) (counts : String → Prop) (directory : List String) :
    Path → Prop
  | settings (h : (tree.text? (directory ++ [settingsFile])).isSome) :
      IsFileIn tree counts directory ⟨true, directory ++ [settingsFile]⟩
  | project {text : String} (hsettings : tree.text? (directory ++ [settingsFile]) = none)
      (h : tree.text? (directory ++ [projectFile]) = some text) (hcounts : counts text) :
      IsFileIn tree counts directory ⟨true, directory ++ [projectFile]⟩

/-- No directory on the way to a place that lies inside another one has a configuration file. -/
def NoneInside (tree : FileTree) (counts : String → Prop) (directory place : List String) : Prop :=
  ∀ inner, inner <+: place → directory.length < inner.length →
    ∀ path, ¬IsFileIn tree counts inner path

/-- The configuration file of the nearest directory that has one, from a place upwards. -/
def IsNearest (tree : FileTree) (counts : String → Prop) (place : List String) (path : Path) :
    Prop :=
  ∃ directory, directory <+: place ∧ IsFileIn tree counts directory path ∧
    NoneInside tree counts directory place

/-- The header of the settings occurs in a text. -/
def Mentions (text : String) : Prop :=
  settingsHeader.toList <:+: text.toList

/-- The keys of the header of the settings. -/
def headerKeys : List String :=
  ["tool", "fieldspread"]

/-- A text is a document that has a table of settings. -/
def Declares (text : String) : Prop :=
  ∃ document, parse text = .ok document ∧ (Toml.Value.table document).HasTable headerKeys

section Nearest

variable {tree : FileTree} {counts : String → Prop} {directory parts place : List String}
  {name : String} {path : Path}

lemma IsFileIn.parts_eq (h : IsFileIn tree counts directory path) :
    path.parts.dropLast = directory := by
  cases h <;> simp

lemma fileIn?_eq_some_iff :
    fileIn? tree directory = some path ↔ IsFileIn tree Mentions directory path := by
  rw [fileIn?]
  constructor
  · intro h
    split at h <;> rename_i hsettings
    · injection h with h
      exact h ▸ .settings hsettings
    · split at h
      · rename_i text hproject
        split at h <;> rename_i hmentions
        · injection h with h
          exact h ▸ .project (Option.not_isSome_iff_eq_none.mp hsettings) hproject
            ((Text.occursIn_iff _ _).mp hmentions)
        · cases h
      · cases h
  · intro h
    cases h with
    | settings hsettings => rw [if_pos hsettings]
    | project hsettings hproject hmentions =>
      rw [if_neg (by simp [hsettings]), hproject]
      exact if_pos ((Text.occursIn_iff _ _).mpr hmentions)

lemma fileIn?_eq_none_iff :
    fileIn? tree directory = none ↔ ∀ path, ¬IsFileIn tree Mentions directory path := by
  simp only [← fileIn?_eq_some_iff, Option.eq_none_iff_forall_ne_some]

lemma noneInside_self (place : List String) : NoneInside tree counts place place :=
  fun _ hinner hlength => absurd hinner.length_le (Nat.not_le.mpr hlength)

lemma noneInside_concat_iff (h : directory <+: parts) :
    NoneInside tree counts directory (parts ++ [name]) ↔
      (∀ path, ¬IsFileIn tree counts (parts ++ [name]) path) ∧
        NoneInside tree counts directory parts := by
  constructor
  · intro hnone
    refine ⟨hnone _ List.prefix_rfl ?_, fun inner hinner =>
      hnone inner (hinner.trans (List.prefix_append parts [name]))⟩
    rw [List.length_append, List.length_singleton]
    exact Nat.lt_succ_of_le h.length_le
  · rintro ⟨hown, hnone⟩ inner hinner hlength
    rcases List.prefix_concat_iff.mp hinner with rfl | hinner
    · exact hown
    · exact hnone inner hinner hlength

lemma isNearest_nil_iff : IsNearest tree counts [] path ↔ IsFileIn tree counts [] path := by
  constructor
  · rintro ⟨directory, hdirectory, hfile, -⟩
    rwa [List.prefix_nil.mp hdirectory] at hfile
  · intro hfile
    exact ⟨[], List.prefix_rfl, hfile, noneInside_self []⟩

/-- The nearest file from a directory is its own, or it has none and it is the nearest file from the
directory that holds it. -/
lemma isNearest_concat_iff :
    IsNearest tree counts (parts ++ [name]) path ↔
      IsFileIn tree counts (parts ++ [name]) path ∨
        (∀ other, ¬IsFileIn tree counts (parts ++ [name]) other) ∧
          IsNearest tree counts parts path := by
  constructor
  · rintro ⟨directory, hdirectory, hfile, hnone⟩
    rcases List.prefix_concat_iff.mp hdirectory with rfl | hdirectory
    · exact .inl hfile
    · obtain ⟨hown, hnone⟩ := (noneInside_concat_iff hdirectory).mp hnone
      exact .inr ⟨hown, directory, hdirectory, hfile, hnone⟩
  · rintro (hfile | ⟨hown, directory, hdirectory, hfile, hnone⟩)
    · exact ⟨_, List.prefix_rfl, hfile, noneInside_self _⟩
    · exact ⟨directory, hdirectory.trans (List.prefix_append parts [name]), hfile,
        (noneInside_concat_iff hdirectory).mpr ⟨hown, hnone⟩⟩

/-- The search from a place upwards finds the nearest file. -/
lemma findSome?_around_eq_some_iff :
    (Path.around place).findSome? (fileIn? tree) = some path ↔
      IsNearest tree Mentions place path := by
  induction place using List.reverseRecOn with
  | nil => simp [isNearest_nil_iff, fileIn?_eq_some_iff]
  | append_singleton parts name ih =>
    rw [Path.around_concat, isNearest_concat_iff, List.findSome?_cons, ← ih,
      ← fileIn?_eq_some_iff, ← fileIn?_eq_none_iff]
    cases fileIn? tree (parts ++ [name]) <;> simp

/-! ### Two ways to count project files -/

variable {counts' : String → Prop}

lemma isFileIn_iff_isNearest :
    IsFileIn tree counts place path ↔
      IsNearest tree counts place path ∧ path.parts.dropLast = place := by
  constructor
  · intro hfile
    exact ⟨⟨place, List.prefix_rfl, hfile, fun inner hinner hlength =>
      absurd hinner.length_le (Nat.not_le.mpr hlength)⟩, hfile.parts_eq⟩
  · rintro ⟨⟨directory, -, hfile, -⟩, rfl⟩
    rwa [hfile.parts_eq]

lemma IsFileIn.congr
    (h : ∀ text, tree.text? (directory ++ [settingsFile]) = none →
      tree.text? (directory ++ [projectFile]) = some text → counts text → counts' text)
    (hfile : IsFileIn tree counts directory path) : IsFileIn tree counts' directory path := by
  cases hfile with
  | settings hsettings => exact .settings hsettings
  | project hsettings hproject hcounts =>
    exact .project hsettings hproject (h _ hsettings hproject hcounts)

lemma IsFileIn.counts_of_project {text : String}
    (hsettings : tree.text? (directory ++ [settingsFile]) = none)
    (hproject : tree.text? (directory ++ [projectFile]) = some text)
    (h : IsFileIn tree counts directory path) : counts text := by
  cases h with
  | settings h => simp [hsettings] at h
  | project _ h hcounts => rwa [← Option.some.inj (hproject.symm.trans h)] at hcounts

lemma isFileIn_congr_iff :
    (∀ path, IsFileIn tree counts directory path ↔ IsFileIn tree counts' directory path) ↔
      ∀ text, tree.text? (directory ++ [settingsFile]) = none →
        tree.text? (directory ++ [projectFile]) = some text → (counts text ↔ counts' text) := by
  constructor
  · intro h text hsettings hproject
    constructor <;> intro hcounts
    · exact ((h _).mp (.project hsettings hproject hcounts)).counts_of_project hsettings hproject
    · exact ((h _).mpr (.project hsettings hproject hcounts)).counts_of_project hsettings hproject
  · intro h path
    exact ⟨.congr fun text hsettings hproject => (h text hsettings hproject).mp,
      .congr fun text hsettings hproject => (h text hsettings hproject).mpr⟩

/-- Two ways to count give the same nearest file exactly if they agree on every directory at which
the search for the file that is nearest in one way arrives. -/
lemma isNearest_congr_iff :
    (∀ path, IsNearest tree counts place path ↔ IsNearest tree counts' place path) ↔
      ∀ directory, directory <+: place → NoneInside tree counts directory place →
        ∀ path, IsFileIn tree counts directory path ↔ IsFileIn tree counts' directory path := by
  induction place using List.reverseRecOn with
  | nil =>
    simp only [isNearest_nil_iff]
    constructor
    · intro h directory hdirectory _
      rwa [List.prefix_nil.mp hdirectory]
    · exact fun h => h [] List.prefix_rfl (noneInside_self [])
  | append_singleton parts name ih =>
    constructor
    · intro h directory hdirectory hnone
      have hown : ∀ path, IsFileIn tree counts (parts ++ [name]) path ↔
          IsFileIn tree counts' (parts ++ [name]) path := fun path => by
        rw [isFileIn_iff_isNearest, isFileIn_iff_isNearest, h]
      rcases List.prefix_concat_iff.mp hdirectory with rfl | hdirectory
      · exact hown
      · obtain ⟨hempty, hnone⟩ := (noneInside_concat_iff hdirectory).mp hnone
        refine ih.mp (fun path => ?_) directory hdirectory hnone
        have hempty' : ∀ path, ¬IsFileIn tree counts' (parts ++ [name]) path :=
          fun path => (hown path).not.mp (hempty path)
        simpa [isNearest_concat_iff, hempty, hempty'] using h path
    · intro h path
      have hown := h _ List.prefix_rfl (noneInside_self _)
      by_cases hempty : ∀ other, ¬IsFileIn tree counts (parts ++ [name]) other
      · have hempty' : ∀ path, ¬IsFileIn tree counts' (parts ++ [name]) path :=
          fun path => (hown path).not.mp (hempty path)
        have hparts := ih.mpr fun directory hdirectory hnone =>
          h directory (hdirectory.trans (List.prefix_append parts [name]))
            ((noneInside_concat_iff hdirectory).mpr ⟨hempty, hnone⟩)
        simp [isNearest_concat_iff, hempty, hempty', hparts]
      · have hempty' : ¬∀ other, ¬IsFileIn tree counts' (parts ++ [name]) other :=
          fun h => hempty fun other => (hown other).not.mpr (h other)
        simp [isNearest_concat_iff, hempty', hown]

end Nearest

/-- A line of a document begins, behind blanks, with the header of the settings. -/
def HasHeaderLine (lines : List (List Char × Option Statement)) : Prop :=
  ∃ line ∈ lines, settingsHeader.toList <+: line.1.dropWhile isSpace

/-- A document with a line for the header of the settings mentions it and names their table. -/
lemma naming_of_hasHeaderLine {text : String} {lines : List (List Char × Option Statement)}
    (hlines : Lines text.toList lines) (h : HasHeaderLine lines) :
    Mentions text ∧ Statement.AreNaming [] headerKeys (lines.filterMap (·.2)) := by
  obtain ⟨line, hline, rest, hbegins⟩ := h
  obtain ⟨hsuffix, result, hread, hstatement⟩ := hlines.exists_of_mem hline
  refine ⟨?_, Statement.areNaming_of_mem (List.mem_filterMap.mpr ⟨line, hline, ?_⟩)⟩
  · have hinfix : settingsHeader.toList <:+: line.1.dropWhile isSpace :=
      (List.prefix_append _ rest).isInfix.trans (hbegins ▸ List.infix_rfl)
    exact hinfix.trans ((List.dropWhile_suffix _).trans hsuffix).isInfix
  · rw [← hstatement]
    have hfirst : IsBareWord "tool".toList := .of_all (by decide) (by decide)
    have hsecond : IsBareWord "fieldspread".toList := .of_all (by decide) (by decide)
    exact Reader.eq_header_of_lineStatement "tool".toList ["fieldspread".toList] hfirst
      (List.forall_mem_singleton.mpr hsecond) hbegins.symm hread

/-- The search finds the file of the nearest directory that has one, where a project file counts if
its text mentions the header of the settings. This is the nearest file by the tables that documents
declare exactly if both agree on each project file at which the search arrives. A document declares
the table if one of its statements names it and nothing on the way to it is an array; with a line
for the header it mentions the header as well. -/
theorem find?_nearest (w : Workspace) (start : Path) :
    let place := (w.directory.inside start).resolve.parts
    (∀ path, find? w start = some path ↔ IsNearest w.tree Mentions place path) ∧
    (find? w start = none ↔
      ∀ directory, directory <+: place → ∀ path, ¬IsFileIn w.tree Mentions directory path) ∧
    ((∀ path, find? w start = some path ↔ IsNearest w.tree Declares place path) ↔
      ∀ directory, directory <+: place → NoneInside w.tree Mentions directory place →
        ∀ text, w.tree.text? (directory ++ [settingsFile]) = none →
          w.tree.text? (directory ++ [projectFile]) = some text →
          (Mentions text ↔ Declares text)) ∧
    ∀ text document, parse text = .ok document → ∃ lines, Lines text.toList lines ∧
      (Declares text ↔ Statement.AreNaming [] headerKeys (lines.filterMap (·.2)) ∧
        ∀ way, way <+: headerKeys → ¬(Toml.Value.table document).HasArray way) ∧
      (HasHeaderLine lines → Mentions text ∧
        (Declares text ↔
          ∀ way, way <+: headerKeys → ¬(Toml.Value.table document).HasArray way)) := by
  intro place
  have hfind : ∀ path, find? w start = some path ↔ IsNearest w.tree Mentions place path :=
    fun path => findSome?_around_eq_some_iff
  refine ⟨hfind, ?_, ?_, fun text document hparse => ?_⟩
  · rw [find?, List.findSome?_eq_none_iff]
    simp only [Path.mem_around_iff, fileIn?_eq_none_iff]
    rfl
  · simp only [hfind, isNearest_congr_iff, isFileIn_congr_iff]
  · obtain ⟨lines, hlines, htable⟩ := exists_lines_of_parse hparse headerKeys (List.cons_ne_nil _ _)
    have hdeclares : Declares text ↔ (Toml.Value.table document).HasTable headerKeys := by
      simp [Declares, hparse]
    rw [← hdeclares] at htable
    refine ⟨lines, hlines, htable, fun hheader => ?_⟩
    obtain ⟨hmentions, hnaming⟩ := naming_of_hasHeaderLine hlines hheader
    exact ⟨hmentions, htable.trans (and_iff_right hnaming)⟩

/-- Lines may end in a return and a newline. -/
example :
    let tree : FileTree := {
      files := [(["pyproject.toml"], "[tool.fieldspread]\r\n")] }
    ∃ text, tree.text? ["pyproject.toml"] = some text ∧ Declares text :=
  ⟨_, rfl, [("tool", .table [("fieldspread", .table [])])], by cbv, _, rfl⟩

/-- The header in a comment: the search ends at a project file that declares no settings, below the
file that does. -/
theorem find?_comment :
    let tree : FileTree := {
      files := [(["fieldspread.toml"], ""), (["sub", "pyproject.toml"], "# [tool.fieldspread]\n")] }
    find? { tree, directory := ⟨true, ["sub"]⟩ } ⟨false, []⟩ =
        some ⟨true, ["sub", "pyproject.toml"]⟩ ∧
      IsNearest tree Declares ["sub"] ⟨true, ["fieldspread.toml"]⟩ ∧
      ¬IsNearest tree Declares ["sub"] ⟨true, ["sub", "pyproject.toml"]⟩ := by
  intro tree
  have hparse : parse (Text.withNewlines "# [tool.fieldspread]\n") = .ok [] := by cbv
  have hsub : ∀ path, ¬IsFileIn tree Declares ["sub"] path := by
    intro path hfile
    cases hfile with
    | settings h => cases h
    | project _ h hdeclares =>
      injection h with h
      subst h
      obtain ⟨document, hdocument, hkeys⟩ := hdeclares
      change parse (Text.withNewlines _) = .ok document at hdocument
      rw [hparse] at hdocument
      injection hdocument with hdocument
      subst hdocument
      exact absurd (Toml.Value.hasTable_empty_iff.mp hkeys) (List.cons_ne_nil _ _)
  have hnearest : ∀ path,
      IsNearest tree Declares ["sub"] path ↔ IsFileIn tree Declares [] path := by
    intro path
    have hconcat : IsNearest tree Declares ([] ++ ["sub"]) path ↔ _ := isNearest_concat_iff
    rw [isNearest_nil_iff] at hconcat
    exact hconcat.trans (by simp [hsub])
  refine ⟨by cbv, (hnearest _).mpr (.settings rfl), fun h => ?_⟩
  exact absurd ((hnearest _).mp h).parts_eq (by decide)

end Configuration

end FieldComposition
