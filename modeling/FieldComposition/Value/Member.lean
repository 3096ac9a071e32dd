import FieldComposition.Value.Printer

/-!
# Members of values

What a value has under a name: numbers have their parts, records their fields, and every value
the class that it belongs to. Operations are members too, but only their written form is known.
-/

namespace FieldComposition

/-- The written form of a class that a module declares; the module of the built-in classes goes
without saying. -/
def classForm (module name : String) : String :=
  if module = "builtins" then "<class '" ++ name ++ "'>"
  else "<class '" ++ module ++ "." ++ name ++ "'>"

namespace Value

/-- The module that the classes of records are listed under. -/
def recordModule : String :=
  "types"

/-- The name of the class of a value. -/
def className : Value → String
  | nothing => "NoneType"
  | bool _ => "bool"
  | int _ => "int"
  | real _ => "float"
  | text _ => "str"
  | list _ => "list"
  | dict _ => "dict"
  | record name _ => name
  | symbol _ => "object"

/-- The written form of the class of a value. -/
def classFormOf (v : Value) : String :=
  match v with
  | record name _ => classForm recordModule name
  | v => classForm "builtins" v.className

/-- A fixed sequence of values, of which only the written form is kept. -/
def tuple (items : List Value) : Value :=
  match items with
  | [v] => symbol ("(" ++ v.render ++ ",)")
  | items => symbol ("(" ++ ", ".intercalate (items.map render) ++ ")")

/-- The parts of an integer as a complex number and as a fraction. -/
def integerPart? (n : Int) : String → Option Value
  | "real" | "numerator" => some (int n)
  | "imag" => some (int 0)
  | "denominator" => some (int 1)
  | _ => none

/-- What a record of a class has apart from its fields. -/
def recordPart? (fields : List (String × Value)) : String → Option Value
  | "__dict__" => some (dict fields)
  | "__match_args__" => some (tuple (fields.map fun field => text field.1))
  | "__module__" => some (text recordModule)
  | "__hash__" | "__weakref__" => some nothing
  | _ => none

/-- The members of a value that are values themselves. -/
def part? (v : Value) (name : String) : Option Value :=
  match v with
  | int n => integerPart? n name
  | bool b => integerPart? b.toInt name
  | real x =>
    match name with
    | "real" => some (real x)
    | "imag" => some (real (.ofInt 0))
    | _ => none
  | record _ fields => (lookup? name fields).or (recordPart? fields name)
  | list _ | dict _ => if name = "__hash__" then some nothing else none
  | _ => none

/-- The names of the parts that the values of a built-in class have. -/
def partNames : String → List String
  | "int" | "bool" => ["real", "imag", "numerator", "denominator"]
  | "float" => ["real", "imag"]
  | _ => []

/-- Operations that every value has. -/
def commonOperations : List String :=
  ["__delattr__", "__dir__", "__doc__", "__eq__", "__format__", "__ge__", "__getattribute__",
   "__getstate__", "__gt__", "__hash__", "__init__", "__init_subclass__", "__le__", "__lt__",
   "__ne__", "__new__", "__reduce__", "__reduce_ex__", "__repr__", "__setattr__", "__sizeof__",
   "__str__", "__subclasshook__"]

/-- Operations of all numbers. -/
def numberOperations : List String :=
  ["__abs__", "__add__", "__bool__", "__ceil__", "__divmod__", "__float__", "__floor__",
   "__floordiv__", "__getnewargs__", "__int__", "__mod__", "__mul__", "__neg__", "__pos__",
   "__pow__", "__radd__", "__rdivmod__", "__rfloordiv__", "__rmod__", "__rmul__", "__round__",
   "__rpow__", "__rsub__", "__rtruediv__", "__sub__", "__truediv__", "__trunc__",
   "as_integer_ratio", "conjugate"]

def integerOperations : List String :=
  numberOperations ++
  ["__and__", "__index__", "__invert__", "__lshift__", "__or__", "__rand__", "__rlshift__",
   "__ror__", "__rrshift__", "__rshift__", "__rxor__", "__xor__", "bit_count", "bit_length",
   "from_bytes", "to_bytes"]

/-- Operations of values that have a length and items. -/
def sequenceOperations : List String :=
  ["__contains__", "__getitem__", "__iter__", "__len__"]

def textOperations : List String :=
  sequenceOperations ++
  ["__add__", "__getnewargs__", "__mod__", "__mul__", "__rmod__", "__rmul__", "capitalize",
   "casefold", "center", "count", "encode", "endswith", "expandtabs", "find", "format",
   "format_map", "index", "isalnum", "isalpha", "isascii", "isdecimal", "isdigit",
   "isidentifier", "islower", "isnumeric", "isprintable", "isspace", "istitle", "isupper", "join",
   "ljust", "lower", "lstrip", "maketrans", "partition", "removeprefix", "removesuffix",
   "replace", "rfind", "rindex", "rjust", "rpartition", "rsplit", "rstrip", "split",
   "splitlines", "startswith", "strip", "swapcase", "title", "translate", "upper", "zfill"]

def listOperations : List String :=
  sequenceOperations ++
  ["__add__", "__class_getitem__", "__delitem__", "__iadd__", "__imul__", "__mul__",
   "__reversed__", "__rmul__", "__setitem__", "append", "clear", "copy", "count", "extend",
   "index", "insert", "pop", "remove", "reverse", "sort"]

def dictOperations : List String :=
  sequenceOperations ++
  ["__class_getitem__", "__delitem__", "__ior__", "__or__", "__reversed__", "__ror__",
   "__setitem__", "clear", "copy", "fromkeys", "get", "items", "keys", "pop", "popitem",
   "setdefault", "update", "values"]

def recordOperations : List String :=
  ["__annotations__", "__dataclass_fields__", "__dataclass_params__"]

/-- The operations of the built-in class of a name. -/
def operationsOf : String → List String
  | "NoneType" => "__bool__" :: commonOperations
  | "int" | "bool" => integerOperations ++ commonOperations
  | "float" =>
    numberOperations ++ ["__getformat__", "fromhex", "hex", "is_integer"] ++ commonOperations
  | "str" => textOperations ++ commonOperations
  | "list" => listOperations ++ commonOperations
  | "dict" => dictOperations ++ commonOperations
  | _ => commonOperations

/-- The names of a value's operations. -/
def operations : Value → List String
  | record _ _ => recordOperations ++ commonOperations
  | v => operationsOf v.className

/-- What a value has under a name. -/
def member? (v : Value) (name : String) : Option Value :=
  if name = "__class__" then some (symbol v.classFormOf)
  else
    let operation? := if v.operations.contains name then
        some (symbol ("<method '" ++ name ++ "' of '" ++ v.className ++ "' object>"))
      else none
    (v.part? name).or operation?

end Value

end FieldComposition
