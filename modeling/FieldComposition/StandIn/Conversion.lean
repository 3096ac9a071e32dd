import FieldComposition.RecordClass
import FieldComposition.StandIn.Scalar

/-!
# Converting values

A declared type converts the values it is given where they stand for one of its own: numbers in
texts, whole reals as integers, words for truth values. All parts of a list or a dictionary are
converted, and every part that cannot be gives one issue with the way to it. A model converts the
fields it is given and ignores all others.
-/

namespace FieldComposition.StandIn

/-- The rules that conversions break. -/
inductive Mismatch where
  | int (fault : IntegerFault)
  | notAText
  | notAReal
  | unreadableReal
  | notATruthValue
  | unreadableTruthValue
  | notAList
  | notADict
  /-- There is no value for a field that needs one. -/
  | missing
  deriving DecidableEq, Repr

namespace Mismatch

def rule : Mismatch → String
  | int fault => fault.rule
  | notAText => "string_type"
  | notAReal => "float_type"
  | unreadableReal => "float_parsing"
  | notATruthValue => "bool_type"
  | unreadableTruthValue => "bool_parsing"
  | notAList => "list_type"
  | notADict => "dict_type"
  | missing => "missing"

def issue (way : List String) (m : Mismatch) : ValueIssue :=
  ⟨way, m.rule⟩

end Mismatch

def toInt (v : Value) : Except Mismatch Value :=
  match integerOf v with
  | .ok n => .ok (.int n)
  | .error fault => .error (.int fault)

def toText : Value → Except Mismatch Value
  | .text s => .ok (.text s)
  | _ => .error .notAText

def toReal : Value → Except Mismatch Value
  | .real x => .ok (.real x)
  | .int n =>
    match Number.Binary64.ofInt n with
    | .infinite _ => .error .notAReal
    | x => .ok (.real x)
  | .bool b => .ok (.real (.ofInt b.toInt))
  | .text s =>
    match Number.realOfText? s with
    | some x => .ok (.real x)
    | none => .error .unreadableReal
  | _ => .error .notAReal

/-- Whether a number is an integer of 64 bits. -/
def isWord64 (n : Int) : Bool :=
  -9223372036854775808 ≤ n && n < 9223372036854775808

/-- A truth value from one of the words for it, in letters of either case. -/
def boolOfText? (text : String) : Option Bool :=
  let word := String.ofList (text.toList.map Char.toLower)
  if ["0", "off", "f", "false", "n", "no"].contains word then some false
  else if ["1", "on", "t", "true", "y", "yes"].contains word then some true
  else none

def toBool : Value → Except Mismatch Value
  | .bool b => .ok (.bool b)
  | .int n =>
    if n = 0 then .ok (.bool false)
    else if n = 1 then .ok (.bool true)
    else .error (if isWord64 n then .unreadableTruthValue else .notATruthValue)
  | .real x =>
    if x.equalsInt 0 then .ok (.bool false)
    else if x.equalsInt 1 then .ok (.bool true)
    else .error .notATruthValue
  | .text s =>
    match boolOfText? s with
    | some b => .ok (.bool b)
    | none => .error .unreadableTruthValue
  | _ => .error .notATruthValue

/-- Converts every value under its key; the issues of all of them are collected. -/
def convertEach (convert : Value → Except Mismatch Value) :
    List (String × Value) → Except (List ValueIssue) (List (String × Value))
  | [] => .ok []
  | (key, v) :: rest =>
    match convert v, convertEach convert rest with
    | .ok v, .ok rest => .ok ((key, v) :: rest)
    | .ok _, .error issues => .error issues
    | .error mismatch, .ok _ => .error [mismatch.issue [key]]
    | .error mismatch, .error issues => .error (mismatch.issue [key] :: issues)

/-- Converts a value that has no parts. -/
def convertWhole (convert : Value → Except Mismatch Value) (v : Value) :
    Except (List ValueIssue) Value :=
  (convert v).mapError fun mismatch => [mismatch.issue []]

/-- Converts the items of a list, which go by their indexes. -/
def convertItems (convert : Value → Except Mismatch Value) :
    Value → Except (List ValueIssue) Value
  | .list items =>
    (convertEach convert (items.zipIdx.map fun (item, i) => (toString i, item))).map
      fun entries => .list (entries.map (·.2))
  | _ => .error [Mismatch.notAList.issue []]

/-- The value of a type that a value stands for. -/
def convert (hint : TypeHint) (v : Value) : Except (List ValueIssue) Value :=
  match hint with
  | .int => convertWhole toInt v
  | .real => convertWhole toReal v
  | .text => convertWhole toText v
  | .bool => convertWhole toBool v
  | .optionalInt =>
    match v with
    | .nothing => .ok .nothing
    | v => convertWhole toInt v
  | .list => convertItems .ok v
  | .intList => convertItems toInt v
  | .textList => convertItems toText v
  | .intDict =>
    match v with
    | .dict entries => (convertEach toInt entries).map .dict
    | _ => .error [Mismatch.notADict.issue []]
  | .any | .generic | .unresolved => .ok v

/-- The value of a field of a model, with the issues it gives; a default is right as it is. -/
def modelField (given : List (String × Value)) (f : FieldDecl) :
    Option (String × Value) × List ValueIssue :=
  match Value.lookup? f.name given, f.default with
  | some v, _ =>
    match convert f.hint v with
    | .ok v => (some (f.name, v), [])
    | .error issues => (none, issues.map fun i => { i with way := f.name :: i.way })
  | none, some (.value v) => (some (f.name, v), [])
  | none, _ => (none, [Mismatch.missing.issue [f.name]])

/-- The fields of an instance of a model. -/
def makeModel (fields : List FieldDecl) (given : List (String × Value)) :
    Except ConstructionFault (List (String × Value)) :=
  if fields.any (·.hint == .unresolved) then .error .incomplete
  else
    let read := fields.map (modelField given)
    let issues := read.flatMap (·.2)
    if issues.isEmpty then .ok (read.filterMap (·.1)) else .error (.invalid issues)

end FieldComposition.StandIn
