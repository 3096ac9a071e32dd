import FieldComposition.Emission.Script
import FieldComposition.Evaluation.HostExpression

/-!
# Checks of code

Code is read as a whole before any of it is run: every text of the caller has to be an expression
where it stands, every word that is bound has to be a name, and no call repeats a name. The lines
of a script are read together (`Script.checkLines`), its result by itself (`Script.checkResult`).
The arguments of a call stand on lines of their own, so that their texts are indented like these
(`Script.laidOut`).
-/

namespace FieldComposition

/-- An operand on lines that start with a tab. -/
def Operand.laidOut (tab : String) : Operand → Operand
  | host text => host (Text.indent tab text)
  | field owner name => field owner name

namespace Python

def Term.laidOut (tab : String) : Term → Term
  | operand o => operand (o.laidOut tab)
  | clone value => clone (value.laidOut tab)
  | convert value target field => convert (value.laidOut tab) (Text.indent tab target) field
  | apply path value => apply (Text.indent tab path) (value.laidOut tab)

def Keyword.laidOut (tab : String) (k : Keyword) : Keyword :=
  { k with value := k.value.laidOut tab }

def Computation.laidOut (tab : String) : Computation → Computation
  | construct callee keywords => construct callee (keywords.map (·.laidOut tab))
  | update callee base keywords =>
    update (Text.indent tab callee) (Text.indent tab base) (keywords.map (·.laidOut tab))
  | value => value

def Line.laidOut (tab : String) : Line → Line
  | assign name value => assign name (value.laidOut tab)
  | line => line

/-- A script whose texts of the caller are as they stand in the emitted code. -/
def Script.laidOut (tab : String) (s : Script) : Script :=
  { s with
    blocks := s.blocks.map fun block => block.map (·.laidOut tab)
    result := s.result.map (·.laidOut tab) }

/-- Checks that a word is a name. -/
def checkName (word : String) : Except CodeFault Unit :=
  if Name.isReserved word then .error .malformed else .ok ()

/-- Checks that a text of the caller is an expression. -/
def checkHost (setting : Setting) (text : String) : Except CodeFault Unit := do
  let _ ← HostExpression.ofText setting text

def checkOperand (setting : Setting) : Operand → Except CodeFault Unit
  | .host text => checkHost setting text
  | .field _ name => checkName name

def Term.validate (setting : Setting) : Term → Except CodeFault Unit
  | operand o => checkOperand setting o
  | clone value => value.validate .brackets
  | convert value target _ => do
    value.validate .brackets
    checkHost .brackets target
  | apply path value => do
    checkHost setting path
    value.validate .brackets

def Keyword.validate (k : Keyword) : Except CodeFault Unit := do
  checkName k.name
  k.value.validate .brackets

def Computation.validate : Computation → Except CodeFault Unit
  | term t => t.validate .line
  | host text => checkHost .line text
  | construct callee keywords => do
    checkHost .line callee
    keywords.forM (·.validate)
  | update callee base keywords => do
    checkHost .brackets callee
    checkHost .brackets base
    keywords.forM (·.validate)
  | fieldChecks _ _ => .ok ()

/-- Checks a class, which is generic over at least one type if it is generic at all. -/
def ClassDef.validate (d : ClassDef) : Except CodeFault Unit := do
  checkName d.name
  if d.typeParameters = some [] then throw .malformed
  d.fields.forM fun f => checkName f.name

def Line.validate : Line → Except CodeFault Unit
  | blank => .ok ()
  | typeVariable name => checkName name
  | classDef d => d.validate
  | assign name value => do
    checkName name
    value.validate
  | check _ _ _ field => checkName field
  | report _ args => args.forM fun arg => checkHost .brackets arg.text

/-- The names under which a computation passes values. -/
def Computation.keywordNames : Computation → List String
  | construct _ keywords | update _ _ keywords => keywords.map fun k => Text.normalize k.name
  | _ => []

/-- The names that a line binds. -/
def Line.bound : Line → List String
  | typeVariable name | assign name _ => [name]
  | classDef d => d.name :: d.fields.map Field.name
  | _ => []

/-- The computation in a line. -/
def Line.computation? : Line → Option Computation
  | assign _ value => some value
  | _ => none

/-- Checks what only shows once all of the code has been read: that the one name that is never
bound is not, and that no call repeats a name. -/
def checkNames (bound : List String) (values : List Computation) : Except CodeFault Unit :=
  let names := bound.map Text.normalize ++ values.flatMap (·.keywordNames)
  if names.contains Name.checking ||
      values.any fun value => !Name.areDistinct value.keywordNames then
    .error .malformed
  else .ok ()

/-- The name that an import binds. -/
def Module.boundName (runtimeName : String) : Module → String
  | runtime => runtimeName
  | m => m.name

/-- Checks the imports and lines of a script. -/
def Script.checkLines (runtimeName : String) (s : Script) : Except CodeFault Unit := do
  let imported := s.imports.map (·.boundName runtimeName)
  let lines := s.blocks.flatten
  imported.forM checkName
  lines.forM Line.validate
  checkNames (imported ++ lines.flatMap Line.bound) (lines.filterMap Line.computation?)

/-- Checks the result of a script, if there is one. -/
def Script.checkResult (s : Script) : Except CodeFault Unit :=
  match s.result with
  | some value => do
    value.validate
    checkNames [] [value]
  | none => .ok ()

end Python

end FieldComposition
