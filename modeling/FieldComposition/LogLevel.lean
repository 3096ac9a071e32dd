/-!
# Levels of logging
-/

namespace FieldComposition

inductive LogLevel where
  | notSet | debug | info | warning | error | critical
  deriving DecidableEq, Repr

namespace LogLevel

def number : LogLevel → Nat
  | notSet => 0
  | debug => 10
  | info => 20
  | warning => 30
  | error => 40
  | critical => 50

def ofName? : String → Option LogLevel
  | "NOTSET" => some notSet
  | "DEBUG" => some debug
  | "INFO" => some info
  | "WARNING" => some warning
  | "WARN" => some warning
  | "ERROR" => some error
  | "CRITICAL" => some critical
  | "FATAL" => some critical
  | _ => none

/-- A letter as a capital; the dotless i and the long s are small letters too. -/
def capital (c : Char) : Char :=
  if c = 'ı' then 'I' else if c = 'ſ' then 'S' else c.toUpper

/-- The level to log at: all there is when asked for, or else the named one. -/
def choose (verbose : Bool) (name : Option String) : LogLevel :=
  if verbose then debug
  else
    let name := name.getD "WARNING"
    (ofName? (String.ofList (name.toList.map capital))).getD warning

end LogLevel

end FieldComposition
