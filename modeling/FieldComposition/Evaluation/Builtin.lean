import FieldComposition.Evaluation.Fault

/-!
# Built-in names

The names that are known everywhere without an import: constants, classes and functions. Of the
classes and functions, those that turn one plain value into another can be called
(`Builtin.apply`), and the classes of plain values can be called without arguments
(`Builtin.empty?`).
-/

namespace FieldComposition

/-- What a built-in name stands for, constants apart. -/
inductive Builtin where
  | type (name : String)
  | function (name : String)
  deriving DecidableEq, Repr

namespace Builtin

def classNames : List String :=
  ["bool", "bytearray", "bytes", "classmethod", "complex", "dict", "enumerate", "filter", "float",
   "frozenset", "int", "list", "map", "memoryview", "object", "property", "range", "reversed",
   "set", "slice", "staticmethod", "str", "super", "tuple", "type", "zip"]

/-- Classes of errors and warnings that are made from any value. -/
def errorNames : List String :=
  ["ArithmeticError", "AssertionError", "AttributeError", "BaseException", "BlockingIOError",
   "BrokenPipeError", "BufferError", "BytesWarning", "ChildProcessError",
   "ConnectionAbortedError", "ConnectionError", "ConnectionRefusedError", "ConnectionResetError",
   "DeprecationWarning", "EOFError", "EncodingWarning", "Exception", "FileExistsError",
   "FileNotFoundError", "FloatingPointError", "FutureWarning", "GeneratorExit", "ImportError",
   "ImportWarning", "IndentationError", "IndexError", "InterruptedError", "IsADirectoryError",
   "KeyError", "KeyboardInterrupt", "LookupError", "MemoryError", "ModuleNotFoundError",
   "NameError", "NotADirectoryError", "NotImplementedError", "OSError", "OverflowError",
   "PendingDeprecationWarning", "PermissionError", "ProcessLookupError", "RecursionError",
   "ReferenceError", "ResourceWarning", "RuntimeError", "RuntimeWarning", "StopAsyncIteration",
   "StopIteration", "SyntaxError", "SyntaxWarning", "SystemError", "SystemExit", "TabError",
   "TimeoutError", "TypeError", "UnboundLocalError", "UnicodeError", "UnicodeWarning",
   "UserWarning", "ValueError", "Warning", "ZeroDivisionError"]

/-- Classes of errors that need more than one value. -/
def compoundErrorNames : List String :=
  ["BaseExceptionGroup", "ExceptionGroup", "UnicodeDecodeError", "UnicodeEncodeError",
   "UnicodeTranslateError"]

def functionNames : List String :=
  ["__build_class__", "__import__", "abs", "aiter", "all", "anext", "any", "ascii", "bin",
   "breakpoint", "callable", "chr", "compile", "delattr", "dir", "divmod", "eval", "exec",
   "format", "getattr", "globals", "hasattr", "hash", "hex", "id", "input", "isinstance",
   "issubclass", "iter", "len", "locals", "max", "min", "next", "oct", "open", "ord", "pow",
   "print", "repr", "round", "setattr", "sorted", "sum", "vars"]

/-- The names that stand for values. -/
def constants : List (String × Value) :=
  [("Ellipsis", .symbol "Ellipsis"), ("False", .bool false), ("None", .nothing),
   ("NotImplemented", .symbol "NotImplemented"), ("True", .bool true),
   ("__debug__", .bool true), ("__doc__", .symbol "<description of the built-in names>"),
   ("__name__", .text "builtins"), ("__package__", .text ""),
   ("exit", .symbol "Use exit() or Ctrl-D (i.e. EOF) to exit"),
   ("help", .symbol
     "Type help() for interactive help, or help(object) for help about object."),
   ("quit", .symbol "Use quit() or Ctrl-D (i.e. EOF) to exit")]

/-- The class or function of a name; two older names stand for a class with a newer one. -/
def find? (name : String) : Option Builtin :=
  if name = "EnvironmentError" || name = "IOError" then some (type "OSError")
  else if classNames.contains name || errorNames.contains name ||
      compoundErrorNames.contains name then
    some (type name)
  else if functionNames.contains name then some (function name)
  else none

def name : Builtin → String
  | type name => name
  | function name => name

def form : Builtin → String
  | type name => classForm "builtins" name
  | function name => "<built-in function " ++ name ++ ">"

/-- The most digits that a text may have to be read as an integer. -/
def maxDigits : Nat :=
  4300

/-- The integer in a value: a real loses its fraction, a text has to be an integer. -/
def integerOf : Value → Except EvaluationFault Value
  | .int n => .ok (.int n)
  | .bool b => .ok (.int b.toInt)
  | .real x =>
    match x.truncate? with
    | some n => .ok (.int n)
    | none => .error .notANumber
  | .text s =>
    match Number.integerLiteral? s with
    | some n =>
      if maxDigits < (s.toList.filterMap Text.digitValue?).length then .error .notANumber
      else .ok (.int n)
    | none => .error .notANumber
  | _ => .error .badCall

/-- The real in a value. -/
def realOf : Value → Except EvaluationFault Value
  | .int n =>
    match Number.Binary64.ofInt n with
    | .infinite _ => .error .tooLarge
    | x => .ok (.real x)
  | .bool b => .ok (.real (.ofInt b.toInt))
  | .real x => .ok (.real x)
  | .text s =>
    match Number.realOfText? s with
    | some x => .ok (.real x)
    | none => .error .notANumber
  | _ => .error .badCall

def absoluteOf : Value → Except EvaluationFault Value
  | .int n => .ok (.int n.natAbs)
  | .bool b => .ok (.int b.toInt)
  | .real x => .ok (.real x.abs)
  | _ => .error .badCall

def lengthOf : Value → Except EvaluationFault Value
  | .text s => .ok (.int s.length)
  | .list items => .ok (.int items.length)
  | .dict entries => .ok (.int entries.length)
  | _ => .error .badCall

/-- Whether a value counts as true: numbers unless they are zero, and containers unless they are
empty. -/
def isTrue : Value → Bool
  | .nothing => false
  | .bool b => b
  | .int n => n ≠ 0
  | .real x => !x.equalsInt 0
  | .text s => s ≠ ""
  | .list items => !items.isEmpty
  | .dict entries => !entries.isEmpty
  | .record .. | .symbol _ => true

/-- The items of a value: characters of a text, items of a list, keys of a dictionary. -/
def itemsOf : Value → Except EvaluationFault (List Value)
  | .text s => .ok (s.toList.map fun c => .text (String.singleton c))
  | .list items => .ok items
  | .dict entries => .ok (entries.map fun entry => .text entry.1)
  | _ => .error .badCall

/-- The key and the value in a pair; only texts are keys. -/
def entryOf (pair : Value) : Except EvaluationFault (String × Value) := do
  match ← itemsOf pair with
  | [.text key, v] => return (key, v)
  | [_, _] => throw .badCall
  | _ => throw .notAPair

/-- The dictionary of the entries in a value; a later entry replaces an earlier one. -/
def dictOf : Value → Except EvaluationFault Value
  | .dict entries => .ok (.dict entries)
  | v => do
    let pairs ← (← itemsOf v).mapM entryOf
    return .dict (pairs.foldl (fun entries (key, v) =>
      if entries.any (·.1 == key) then
        entries.map fun entry => if entry.1 == key then (key, v) else entry
      else entries ++ [(key, v)]) [])

/-- What a class or function makes of one value. -/
def apply (b : Builtin) (v : Value) : Except EvaluationFault Value :=
  match b with
  | type "int" => integerOf v
  | type "str" => .ok (.text v.display)
  | type "float" => realOf v
  | type "bool" => .ok (.bool (isTrue v))
  | type "list" => (itemsOf v).map .list
  | type "tuple" => (itemsOf v).map Value.tuple
  | type "dict" => dictOf v
  | type "type" => .ok (.symbol v.classFormOf)
  | type name =>
    if errorNames.contains name then .ok (.symbol (name ++ "(" ++ v.render ++ ")"))
    else .error .badCall
  | function "abs" => absoluteOf v
  | function "len" => lengthOf v
  | function "repr" => .ok (.text v.render)
  | function "print" => .ok .nothing
  | function _ => .error .badCall

/-- What a class makes without arguments. -/
def empty? : Builtin → Option Value
  | type "int" => some (.int 0)
  | type "str" => some (.text "")
  | type "float" => some (.real (.ofInt 0))
  | type "bool" => some (.bool false)
  | type "list" => some (.list [])
  | type "dict" => some (.dict [])
  | type "tuple" => some (.tuple [])
  | type "set" => some (.symbol "set()")
  | type "frozenset" => some (.symbol "frozenset()")
  | type "bytes" => some (.symbol "b''")
  | type "complex" => some (.symbol "0j")
  | type "NoneType" => some .nothing
  | type name => if errorNames.contains name then some (.symbol (name ++ "()")) else none
  | function _ => none

end Builtin

end FieldComposition
