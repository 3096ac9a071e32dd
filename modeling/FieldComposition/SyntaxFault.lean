import FieldComposition.Text.Quoted

/-!
# Faults in an invocation

Every reason for which an invocation cannot be read is one constructor of `SyntaxFault`;
`SyntaxFault.message` words it.
-/

namespace FieldComposition

/-- What the reader looks for at a place. -/
inductive Sought where
  | fieldSeparator
  | genericSeparator
  | argumentSeparator
  | nameSeparator
  | separatorAfterActual
  | separatorAfterExpected
  | openingBraceAfterType
  | closingBrace
  | openingParen
  | nameListBracket
  | wordFor
  | wordFn
  | holderName
  | fieldName
  | functionPath
  | functionPathSegment
  | targetType
  | fieldValue (field : String)
  | groupSource
  | base
  | genericParameter
  | argumentType (argument : String)
  | argumentDefault (argument : String)
  | whereClause
  | returnType
  | actualValue
  | expectedValue
  | messageArgument
  deriving DecidableEq, Repr

def Sought.describe : Sought → String
  | fieldSeparator => "',' between fields"
  | genericSeparator => "',' between generic parameters"
  | argumentSeparator => "',' between arguments"
  | nameSeparator => "',' between field names"
  | separatorAfterActual => "',' after actual value"
  | separatorAfterExpected => "',' after expected value"
  | openingBraceAfterType => "'\x7b' after target type"
  | closingBrace => "'\x7d'"
  | openingParen => "'('"
  | nameListBracket => "'[' starting the field list"
  | wordFor => "`for`"
  | wordFn => "`fn`"
  | holderName => "holder name"
  | fieldName => "field name"
  | functionPath => "function path"
  | functionPathSegment => "function path segment"
  | targetType => "target type"
  | fieldValue field => "value for field `" ++ field ++ "`"
  | groupSource => "source expression after `in`"
  | base => "base expression after `..`"
  | genericParameter => "generic parameter"
  | argumentType argument => "type of argument `" ++ argument ++ "`"
  | argumentDefault argument => "default of argument `" ++ argument ++ "`"
  | whereClause => "where clause"
  | returnType => "return type"
  | actualValue => "actual value"
  | expectedValue => "expected value"
  | messageArgument => "message argument"

/-- What stands at a place where something else was sought. -/
inductive Found where
  | endOfInput
  | text (value : String)
  deriving DecidableEq, Repr

def Found.describe : Found → String
  | endOfInput => "end of input"
  | text value => Text.quoted value

/-- The reasons for which an invocation cannot be read. -/
inductive SyntaxFault where
  | unexpectedCharacter (c : Char)
  | invalidIdentifier (word : String)
  | unterminatedString
  | expected (sought : Sought) (found : Found)
  | expectedNameAfter (modifier : String) (found : Found)
  | trailing (value : String)
  | unbalanced (value : String)
  | unbalancedIn (value : String) (sought : Sought)
  | mismatchedIn (value : String) (sought : Sought)
  | unclosedIn (sought : Sought)
  | unknownModifier (value : String)
  | emptyCustomPath
  | customPathNotPlain
  | mutOutsideRebinding
  | renameNotPlain
  | groupNotClosed
  | groupNested
  | groupEmpty
  | groupWithoutSource
  | listNotClosed
  | baseNotAllowed
  | baseNotLast
  | invalidGeneric (decl : String)
  | visibilityNotClosed
  | modifierBeforeSelf
  | selfNotFirst
  | argumentsNotClosed
  | partialDefaults
  | selfWithoutMethod
  | recordEmpty
  | rebindingEmpty
  | rebindingGroup
  | rebindingValue (name : String)
  | cloneModifier (modifier : String)
  | expectedFieldsEmpty
  | nameListEmpty
  /-- A fault that a caller found and put into its own words. -/
  | reported (message : String)
  deriving DecidableEq, Repr

def SyntaxFault.message : SyntaxFault → String
  | unexpectedCharacter c => "Unexpected character: " ++ Text.quoted (String.singleton c)
  | invalidIdentifier word => "Invalid identifier: " ++ Text.quoted word
  | unterminatedString => "Unterminated string literal"
  | expected sought found => "Expected " ++ sought.describe ++ ", got " ++ found.describe
  | expectedNameAfter modifier found =>
    "Expected field name after modifier `" ++ modifier ++ "`, got " ++ found.describe
  | trailing value => "Unexpected " ++ Text.quoted value ++ " after invocation"
  | unbalanced value => "Unbalanced " ++ Text.quoted value
  | unbalancedIn value sought => "Unbalanced " ++ Text.quoted value ++ " in " ++ sought.describe
  | mismatchedIn value sought => "Mismatched " ++ Text.quoted value ++ " in " ++ sought.describe
  | unclosedIn sought => "Unbalanced brackets in " ++ sought.describe
  | unknownModifier value =>
    "Unknown modifier " ++ Text.quoted value ++ ", expected one of & &mut + +> > [path]"
  | emptyCustomPath => "Custom modifier needs a function path between brackets"
  | customPathNotPlain => "Custom modifier must be a plain function path"
  | mutOutsideRebinding => "`mut` is only allowed in rebindings"
  | renameNotPlain => "Only a source field name may follow `:` inside a group"
  | groupNotClosed => "Unbalanced '\x7b': field group is never closed"
  | groupNested => "Field groups cannot be nested"
  | groupEmpty => "Field group must list at least one field"
  | groupWithoutSource => "Expected `in <source>` after field group"
  | listNotClosed => "Unbalanced braces: field list is never closed"
  | baseNotAllowed => "`..base` is only allowed in struct updates"
  | baseNotLast => "`..base` must come last, without a trailing comma"
  | invalidGeneric decl => "Invalid generic parameter " ++ Text.quoted decl
  | visibilityNotClosed => "Unbalanced '(' in visibility"
  | modifierBeforeSelf => "Only `&`, `&mut` or no modifier is allowed before `self`"
  | selfNotFirst => "`self` is only allowed once in first position"
  | argumentsNotClosed => "Unbalanced '(': argument list is never closed"
  | partialDefaults => "Arguments must either all have default values (`= value`) or none have"
  | selfWithoutMethod => "Cannot use `self` with a function that is not a method"
  | recordEmpty => "Anonymous record must have at least one field"
  | rebindingEmpty => "Rebinding must list at least one name"
  | rebindingGroup => "Rebindings take bare names; field groups are not allowed"
  | rebindingValue name =>
    "Rebinding `" ++ name ++
      "` cannot take a value; it always rebinds the outer value of the same name"
  | cloneModifier modifier => "clone takes bare names, found modifier `" ++ modifier ++ "`"
  | expectedFieldsEmpty => "Expected fields cannot be empty"
  | nameListEmpty => "Field list cannot be empty"
  | reported message => message

end FieldComposition
