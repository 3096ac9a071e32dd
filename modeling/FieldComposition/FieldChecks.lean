import FieldComposition.Template
import FieldComposition.Text.Lines

/-!
# Field checks

Two records are compared field by field, and everything that differs is reported together: the names
of the fields, the message of the caller, each pair of values, and both records. How the records are
laid out is left to a package (`layout`).
-/

namespace FieldComposition

/-- The values of one field on both sides. -/
structure Comparison where
  name : String
  actual : Value
  expected : Value
  deriving Repr

def Comparison.holds (c : Comparison) : Bool :=
  c.actual.equals c.expected

def Comparison.isWritable (c : Comparison) : Bool :=
  c.actual.isWritable && c.expected.isWritable

/-- The line that says what a field is and what it should be. -/
def Comparison.line (c : Comparison) : String :=
  "  " ++ c.name ++ ": " ++ c.actual.render ++ " != " ++ c.expected.render

structure FieldChecks where
  actual : Value
  expected : Value
  comparisons : List Comparison := []
  deriving Repr

/-- Why a report cannot be written. -/
inductive MessageFault where
  | template (fault : TemplateFault)
  /-- A message with arguments is no text. -/
  | notATemplate
  /-- A message is no text. -/
  | notAText
  /-- An integer that differs has too many digits to be written. -/
  | overlong
  deriving DecidableEq, Repr

/-- What a report ends with when something differs. -/
inductive ReportFault where
  | differs (text : String)
  | message (fault : MessageFault)
  deriving DecidableEq, Repr

namespace FieldChecks

/-- Compares one more field. -/
def check (checks : FieldChecks) (name : String) (actual expected : Value) : FieldChecks :=
  { checks with comparisons := checks.comparisons ++ [⟨name, actual, expected⟩] }

/-- The names that were compared, in order. -/
def checked (checks : FieldChecks) : List String :=
  checks.comparisons.map (·.name)

def mismatches (checks : FieldChecks) : List Comparison :=
  checks.comparisons.filter fun c => !c.holds

def passed (checks : FieldChecks) : Bool :=
  checks.mismatches.isEmpty

/-- A message with its arguments put in; only a message with arguments is a template. -/
def fillMessage (message : Value) (args : List Value) : Except MessageFault Value :=
  match message with
  | .nothing => .ok .nothing
  | .text s =>
    if args.isEmpty then .ok (.text s)
    else ((Template.fill s args).map .text).mapError .template
  | v =>
    if args.isEmpty then .ok v
    -- What is no text may still have a member that is called like the operation of a text.
    else .error (if (v.member? "format").isSome then .notAText else .notATemplate)

/-- The lines of a message. -/
def messageLines : Value → Except MessageFault (List String)
  | .nothing => .ok []
  | .text s => .ok [s]
  | _ => .error .notAText

def mismatchLine (c : Comparison) : Except MessageFault String :=
  if c.isWritable then .ok c.line else .error .overlong

/-- What there is to say about the comparisons, with a message of the caller. -/
def describe (checks : FieldChecks) (layout : Value → String) (message : Value)
    (args : List Value) : Except MessageFault String := do
  let names := ", ".intercalate (checks.mismatches.map (·.name))
  let message ← fillMessage message args
  let differing ← checks.mismatches.mapM mismatchLine
  let shown (v : Value) := Text.indent "    " (layout v)
  return "\n".intercalate <|
    ["assertion `actual == expected` failed for field(s) " ++ names] ++
      (← messageLines message) ++ differing ++
      ["  actual:", shown checks.actual, "  expected:", shown checks.expected]

/-- Fails with a description unless all comparisons hold. -/
def report (checks : FieldChecks) (layout : Value → String) (message : Value)
    (args : List Value) : Except ReportFault Unit :=
  if checks.passed then .ok ()
  else match checks.describe layout message args with
    | .ok text => .error (.differs text)
    | .error fault => .error (.message fault)

end FieldChecks

end FieldComposition
