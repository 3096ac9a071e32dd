/-!
# Arguments of a command

Options and other arguments are told apart by their dashes. A long option takes its value behind an
equals sign or from the next argument, a short one from the rest of its argument or from the next;
short options without values may share one argument. Two dashes alone end the options.
-/

namespace FieldComposition.CommandLine

structure OptionDecl where
  /-- The name after two dashes. -/
  long : String
  /-- The letter after one dash. -/
  short : Option Char := none
  takesValue : Bool := false
  deriving DecidableEq, Repr

/-- Why arguments cannot be understood. -/
inductive UsageFault where
  | unknownOption (name : String)
  | valueMissing (name : String)
  | valueRefused (name : String)
  | argumentMissing (name : String)
  | argumentRefused (text : String)
  | unknownCommand (name : String)
  | commandMissing
  deriving DecidableEq, Repr

def UsageFault.message : UsageFault → String
  | unknownOption name => "No such option: " ++ name
  | valueMissing name => "Option '--" ++ name ++ "' requires an argument."
  | valueRefused name => "Option '--" ++ name ++ "' does not take a value."
  | argumentMissing name => "Missing argument '" ++ name ++ "'."
  | argumentRefused text => "Got unexpected extra argument (" ++ text ++ ")"
  | unknownCommand name => "No such command '" ++ name ++ "'."
  | commandMissing => "Missing command."

/-- Arguments that have been told apart; an option without a value has an empty one. -/
structure Arguments where
  options : List (String × String) := []
  others : List String := []
  deriving DecidableEq, Repr

namespace Arguments

def has (a : Arguments) (long : String) : Bool :=
  a.options.any (·.1 == long)

/-- The value of an option, the last one if it is given several times. -/
def value? (a : Arguments) (long : String) : Option String :=
  (a.options.reverse.find? (·.1 == long)).map (·.2)

/-- The options in one argument of short options, and the one among them that still needs its value
from the next argument. -/
def shortOptions (decls : List OptionDecl) :
    List Char → Except UsageFault (List (String × String) × Option String)
  | [] => .ok ([], none)
  | c :: rest =>
    match decls.find? (·.short == some c) with
    | none => .error (.unknownOption ("-" ++ String.singleton c))
    | some d =>
      if !d.takesValue then
        (shortOptions decls rest).map fun (options, open?) => ((d.long, "") :: options, open?)
      else if rest.isEmpty then .ok ([], some d.long)
      else .ok ([(d.long, String.ofList rest)], none)

/-- The option in one argument with two dashes, or the one that still needs its value. -/
def longOption (decls : List OptionDecl) (text : List Char) :
    Except UsageFault (List (String × String) × Option String) :=
  let name := String.ofList (text.takeWhile (· != '='))
  let attached? := if text.contains '=' then some ((text.dropWhile (· != '=')).drop 1) else none
  match decls.find? (·.long == name), attached? with
  | none, _ => .error (.unknownOption ("--" ++ name))
  | some d, some value =>
    if d.takesValue then .ok ([(d.long, String.ofList value)], none)
    else .error (.valueRefused d.long)
  | some d, none => if d.takesValue then .ok ([], some d.long) else .ok ([(d.long, "")], none)

/-- Tells arguments apart. With `stopsEarly` the first one that is no option ends the options. -/
def ofList (decls : List OptionDecl) (stopsEarly : Bool) :
    List String → Except UsageFault Arguments
  | [] => .ok {}
  | text :: rest =>
    let read? := match text.toList with
      | '-' :: '-' :: name => some (longOption decls name)
      | '-' :: c :: cs => some (shortOptions decls (c :: cs))
      | _ => none
    if text = "--" then .ok { others := rest }
    else
      match read?, rest with
      | none, rest =>
        if stopsEarly then .ok { others := text :: rest }
        else (ofList decls stopsEarly rest).map fun a => { a with others := text :: a.others }
      | some (.error fault), _ => .error fault
      | some (.ok (options, none)), rest =>
        (ofList decls stopsEarly rest).map fun a => { a with options := options ++ a.options }
      | some (.ok (_, some long)), [] => .error (.valueMissing long)
      | some (.ok (options, some long)), value :: rest =>
        (ofList decls stopsEarly rest).map fun a =>
          { a with options := options ++ (long, value) :: a.options }

end Arguments

end FieldComposition.CommandLine
