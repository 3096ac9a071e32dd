import FieldComposition.Parser.FieldList
import FieldComposition.Text.Identifier

/-!
# Reading invocations

    spread       → type_path "{" field_list "}"
    anon         → field_list | "{" field_list "}"
    slet, clone  → field_list of bare names
    fn_struct    → vis? "struct"? "&"? name generics? where? "for" generics? where?
                   "fn" path "(" (arg ("," arg)*)? ")" ("->" type)?
    arg          → modifier? name (":" type)? ("=" expr)?
    assert       → expr "," (expr "," "[" name ("," name)* "]" | "{" field_list "}")
                   ("," expr)*

`Invocation.ofText` reads one invocation from a text, `Composition.ofText` a field list.
-/

namespace FieldComposition

namespace GenericParam

/-- The name at the front of a declaration: a word, or a lifetime. -/
def nameAt (cs : List Char) : Option (List Char) :=
  let (quote, word) := match cs with
    | '\'' :: rest => (['\''], rest)
    | _ => ([], cs)
  match word with
  | [] => none
  | c :: rest =>
    if Text.isWordStart c then some (quote ++ c :: rest.takeWhile Text.isWordChar) else none

/-- The name after the word `const` and at least one blank. -/
def constName (cs : List Char) : Option (List Char) :=
  let word := ['c', 'o', 'n', 's', 't']
  let rest := cs.drop word.length
  if word.isPrefixOf cs && (rest.head?.map Text.isBlank).getD false then
    nameAt (rest.dropWhile Text.isBlank)
  else none

def ofDecl? (decl : String) : Option GenericParam :=
  ((constName decl.toList).or (nameAt decl.toList)).map fun name => ⟨decl, String.ofList name⟩

end GenericParam

namespace Parser

/-- One more generic parameter. -/
def genericParam (params : List GenericParam) : Parser (List GenericParam) := do
  let decl ← capture
    { stops := [.comma, .greater], sought := .genericParameter, angles := true }
  match GenericParam.ofDecl? decl.text with
  | some param => return params ++ [param]
  | none => fail (.invalidGeneric decl.text) (← current)

/-- `"<" param ("," param)* ","? ">"`, or nothing. -/
def generics : Parser (List GenericParam) := do
  if ← accepts .less then
    let params ← separated .greater (fun _ => false) .genericSeparator genericParam []
    skip 1
    return params
  else return []

/-- `"pub" ("(" ... ")")?`, or nothing. -/
def visibility : Parser (Option String) := do
  match ← accept? .wordPub with
  | none => return none
  | some pub =>
    if (← current).kind = .openParen then return some (← bracketed pub .visibilityNotClosed)
    else return some (← textBetween pub pub)

/-- The text of a type up to a token that may follow it. -/
def typeText (stops : List TokenKind) (sought : Sought) : Parser String := do
  return (← capture { stops, sought, angles := true }).text

/-- A type after the token `mark`, or nothing. -/
def typeAfter? (mark : TokenKind) (stops : List TokenKind) (sought : Sought) :
    Parser (Option String) := do
  if ← accepts mark then return some (← typeText stops sought)
  else return none

/-- An argument of a holder, or the modifier of its receiver `self`. -/
def argument : Parser (Argument ⊕ Modifier) := do
  let first ← current
  let modifier ← modifier
  let name ← nameAfter modifier
  if name.value = "self" then
    unless modifier = .direct || modifier = .ref || modifier = .refMut do
      fail .modifierBeforeSelf first
    return .inr modifier
  else
    let type ← typeAfter? .colon [.comma, .closeParen, .assign] (.argumentType name.value)
    let default ← if ← accepts .assign then
        some <$> capture
          { stops := [.comma, .closeParen], sought := .argumentDefault name.value }
      else pure none
    return .inl { name := name.value, modifier, type, default, position := first.position }

/-- One more argument of the list that `openParen` opens; a receiver comes first. -/
def nextArgument (openParen : Token) (state : Option Modifier × List Argument) :
    Parser (Option Modifier × List Argument) := do
  let t ← current
  if t.kind = .eof then fail .argumentsNotClosed openParen
  match ← argument with
  | .inr receiver =>
    unless state.1.isNone && state.2.isEmpty do fail .selfNotFirst t
    return (some receiver, [])
  | .inl argument => return (state.1, state.2 ++ [argument])

def structUpdate : Parser Invocation := do
  let typePath ← capture { stops := [.openBrace], sought := .targetType, angles := true }
  let _ ← expect .openBrace .openingBraceAfterType
  let composition ← fieldList { close := .closeBrace, allowBase := true }
  let _ ← expect .closeBrace .closingBrace
  expectEnd
  return .structUpdate typePath composition

def anonRecord : Parser Invocation := do
  let first ← current
  let composition ← wholeFieldList false false
  expectEnd
  if composition.isEmpty then fail .recordEmpty first
  return .anonRecord composition

/-- The entry of an item of a rebinding, which is no group and has no value. -/
def bareName : Item → Parser Entry
  | .group g => failAt .rebindingGroup g.position
  | .entry e => do
    if e.value.isSome then failAt (.rebindingValue e.name) e.position
    return e

def rebindingEntries : Parser (List Entry) := do
  let first ← current
  let composition ← wholeFieldList false true
  expectEnd
  if composition.isEmpty then fail .rebindingEmpty first
  composition.items.mapM bareName

def rebinding : Parser Invocation := do
  return .rebinding { items := (← rebindingEntries).map .entry }

def cloneEntry (e : Entry) : Parser Entry := do
  unless e.modifier.isDirect do failAt (.cloneModifier e.modifier.render) e.position
  return { e with modifier := .clone }

def cloneRebinding : Parser Invocation := do
  let entries ← (← rebindingEntries).mapM cloneEntry
  return .rebinding { items := entries.map .entry }

def holder : Parser Invocation := do
  let visibility ← visibility
  let _ ← accept? .wordStruct
  let callByRef ← accepts .amp
  let name ← expect .ident .holderName
  let params ← generics
  let whereClause ← typeAfter? .wordWhere [.wordFor] .whereClause
  let _ ← expect .wordFor .wordFor
  let callGenerics ← generics
  let callWhere ← typeAfter? .wordWhere [.wordFn] .whereClause
  let _ ← expect .wordFn .wordFn
  let pathStart ← current
  let path ← typeText [.openParen] .functionPath
  let openParen ← expect .openParen .openingParen
  let (receiver, args) ← separated .closeParen (fun _ => false) .argumentSeparator
    (nextArgument openParen) (none, [])
  skip 1
  let returnType ← typeAfter? .arrow [.eof] .returnType
  expectEnd
  if args.any (·.default.isSome) && !args.all (·.default.isSome) then
    fail .partialDefaults openParen
  let h : Holder :=
    { name := name.value, visibility, callByRef, generics := params, whereClause, callGenerics,
      callWhere, path, receiver, args, returnType }
  if receiver.isSome && h.receiverType = path then fail .selfWithoutMethod pathStart
  return .holder h

/-- One more name of a list of field names; a name stands in it once. -/
def nextFieldName (names : List Token) : Parser (List Token) := do
  let t ← expectName .fieldName
  match names.find? (·.value == t.value) with
  | some first => fun _ _ => .error (.repeatedName t.value first.position t.position)
  | none => return names ++ [t]

/-- `"[" name ("," name)* ","? "]"`. -/
def fieldNames : Parser (List String) := do
  let openBracket ← expect .openBracket .nameListBracket
  let names ← separated .closeBracket (fun _ => false) .nameSeparator nextFieldName []
  skip 1
  if names.isEmpty then fail .nameListEmpty openBracket
  return names.map (·.value)

def expectedRecord : Parser Expected := do
  let openBrace ← advance
  let composition ← fieldList { close := .closeBrace }
  let _ ← expect .closeBrace .closingBrace
  if composition.isEmpty then fail .expectedFieldsEmpty openBrace
  return .record composition

def expectedValue : Parser Expected := do
  let value ← capture { stops := [.comma], sought := .expectedValue }
  let _ ← expect .comma .separatorAfterExpected
  return .value value (← fieldNames)

def messageArgument (args : List Expression) : Parser (List Expression) := do
  return args ++ [← capture { stops := [.comma], sought := .messageArgument }]

def assertion : Parser Invocation := do
  let actual ← capture { stops := [.comma], sought := .actualValue }
  let _ ← expect .comma .separatorAfterActual
  let expected ← if (← current).kind = .openBrace then expectedRecord else expectedValue
  let formatArgs ← if ← accepts .comma then
      separated .eof (fun _ => false) .fieldSeparator messageArgument []
    else pure []
  expectEnd
  return .assertion { actual, expected, formatArgs }

/-- The parser of an entry point. -/
def invocation : EntryPoint → Parser Invocation
  | .spread => structUpdate
  | .anon => anonRecord
  | .slet => rebinding
  | .clone => cloneRebinding
  | .fnStruct => holder
  | .assertFieldsEq => assertion

/-- Runs a parser on a whole text. -/
def onText {α : Type} (p : Parser α) (host : Host) (text : String) : Except ReadError α :=
  match Tokens.ofText host text with
  | .error e => .error e
  | .ok tokens => (p.run ⟨host, text, tokens.eof⟩ tokens.body).map (·.1)

end Parser

/-- Reads a field list, in braces or without. -/
def Composition.ofText (allowBase allowMut : Bool) (host : Host) (text : String) :
    Except ReadError Composition :=
  Parser.onText (do
    let composition ← Parser.wholeFieldList allowBase allowMut
    Parser.expectEnd
    return composition) host text

def Invocation.ofText (entryPoint : EntryPoint) (host : Host) (text : String) :
    Except ReadError Invocation :=
  Parser.onText (Parser.invocation entryPoint) host text

end FieldComposition
