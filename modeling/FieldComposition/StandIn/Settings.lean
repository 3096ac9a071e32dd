import FieldComposition.Settings
import FieldComposition.StandIn.Scalar

/-!
# Making settings

Settings from a table of raw values: every field that is wrong gives one issue, and so does every
unknown field.
-/

namespace FieldComposition.StandIn

/-- What is wrong with one field. -/
inductive Issue where
  | notADialect
  | notAString
  | notAnInteger (fault : IntegerFault)
  | belowLeast
  | aboveGreatest
  | refused (fault : String)
  | unknown
  deriving DecidableEq, Repr

namespace Issue

def rule : Issue → String
  | notADialect => "literal_error"
  | notAString => "string_type"
  | notAnInteger fault => fault.rule
  | belowLeast => "greater_than_equal"
  | aboveGreatest => "less_than_equal"
  | refused _ => "value_error"
  | unknown => "extra_forbidden"

def message : Issue → String
  | notADialect => "Input should be 'python' or 'rust'"
  | notAString => "Input should be a valid string"
  | notAnInteger fault => fault.message
  | belowLeast =>
    "Input should be greater than or equal to " ++ toString Settings.leastIndent
  | aboveGreatest =>
    "Input should be less than or equal to " ++ toString Settings.greatestIndent
  | refused fault => "Value error, " ++ fault
  | unknown => "Extra inputs are not permitted"

def on (field : String) (i : Issue) : FieldIssue :=
  ⟨field, i.rule, i.message⟩

end Issue

def readDialect : Value → Except Issue Dialect
  | .text s => match Dialect.ofName? s with
    | some d => .ok d
    | none => .error .notADialect
  | _ => .error .notADialect

/-- A text that has to pass a check. -/
def readChecked (fault? : String → Option String) : Value → Except Issue String
  | .text s => match fault? s with
    | some fault => .error (.refused fault)
    | none => .ok s
  | _ => .error .notAString

def readIndent (value : Value) : Except Issue Nat :=
  match integerOf value with
  | .error fault => .error (.notAnInteger fault)
  | .ok n =>
    if n < Settings.leastIndent then .error .belowLeast
    else if Settings.greatestIndent < n then .error .aboveGreatest
    else .ok n.toNat

/-- The value of one field of a table: its default if it is missing, with the issue if it is
wrong. -/
def readField {α : Type} (table : List (String × Value)) (field : String) (default : α)
    (read : Value → Except Issue α) : α × List FieldIssue :=
  match table.find? (·.1 == field) with
  | none => (default, [])
  | some (_, value) =>
    match read value with
    | .ok a => (a, [])
    | .error issue => (default, [issue.on field])

def settingsFields : List String :=
  ["dialect", "runtime_alias", "binding_prefix", "anon_type_name", "indent"]

/-- Settings from a table; the issues stand in the order of the fields, unknown ones last. -/
def makeSettings (table : List (String × Value)) : Except (List FieldIssue) Settings :=
  let defaults : Settings := {}
  let (dialect, issues₁) := readField table "dialect" defaults.dialect readDialect
  let (runtimeAlias, issues₂) := readField table "runtime_alias" defaults.runtimeAlias
    (readChecked Settings.identifierFault?)
  let (bindingStem, issues₃) := readField table "binding_prefix" defaults.bindingStem
    (readChecked Settings.stemFault?)
  let (anonTypeName, issues₄) := readField table "anon_type_name" defaults.anonTypeName
    (readChecked Settings.identifierFault?)
  let (indent, issues₅) := readField table "indent" defaults.indent readIndent
  let unknown := table.filter fun entry => !settingsFields.contains entry.1
  let issues := issues₁ ++ issues₂ ++ issues₃ ++ issues₄ ++ issues₅ ++
    unknown.map fun entry => Issue.unknown.on entry.1
  if issues.isEmpty then .ok { dialect, runtimeAlias, bindingStem, anonTypeName, indent }
  else .error issues

/-- A field without issues has what its default and all values that are read have in common. -/
theorem readField_spec {α : Type} {motive : α → Prop} {table : List (String × Value)}
    {field : String} {default : α} {read : Value → Except Issue α} (hdefault : motive default)
    (hread : ∀ v a, read v = .ok a → motive a) (h : (readField table field default read).2 = []) :
    motive (readField table field default read).1 := by
  unfold readField at h ⊢
  split
  · exact hdefault
  · rename_i v hfind
    simp only [hfind] at h
    cases hvalue : read v with
    | ok a => exact hread v a hvalue
    | error issue => simp [hvalue] at h

theorem fault_eq_none_of_readChecked {fault? : String → Option String} (v : Value) (s : String)
    (h : readChecked fault? v = .ok s) : fault? s = none := by
  cases v with
  | text text =>
    rw [readChecked] at h
    split at h
    · cases h
    · cases h
      assumption
  | _ => cases h

theorem mem_range_of_readIndent (v : Value) (n : Nat) (h : readIndent v = .ok n) :
    Settings.leastIndent ≤ n ∧ n ≤ Settings.greatestIndent := by
  unfold readIndent at h
  split at h
  · cases h
  · split at h
    · cases h
    · split at h
      · cases h
      · cases h
        omega

/-- Settings that are made pass the checks of their fields. -/
theorem isValid_of_makeSettings {table : List (String × Value)} {settings : Settings}
    (h : makeSettings table = .ok settings) : settings.IsValid := by
  unfold makeSettings at h
  dsimp only at h
  split at h
  · rename_i hissues
    cases h
    simp only [List.isEmpty_iff, List.append_eq_nil_iff] at hissues
    obtain ⟨⟨⟨⟨⟨-, halias⟩, hstem⟩, hname⟩, hindent⟩, -⟩ := hissues
    have hrange := readField_spec (motive := fun n => _ ≤ n ∧ n ≤ _) (by decide)
      mem_range_of_readIndent hindent
    exact
      { runtimeAlias := readField_spec (by decide) fault_eq_none_of_readChecked halias
        bindingStem := readField_spec (by decide) fault_eq_none_of_readChecked hstem
        anonTypeName := readField_spec (by decide) fault_eq_none_of_readChecked hname
        leastIndent_le := hrange.1
        le_greatestIndent := hrange.2 }
  · cases h

/-- The text of an error with issues; the values themselves are not shown. -/
def describeIssues (_ : List (String × Value)) (issues : List FieldIssue) : String :=
  let errors := if issues.length = 1 then " validation error" else " validation errors"
  "\n".intercalate ((toString issues.length ++ errors ++ " for ExpansionSettings") ::
    issues.map fun i => i.field ++ "\n  " ++ i.message)

end FieldComposition.StandIn
