import FieldComposition.Parser.Bracket

/-!
# Field lists

    field_list → (item ("," item)* ","?)? ("," ".." expr)?
    item       → group | entry
    group      → "{" entry ("," entry)* ","? "}" "in" expr
    entry      → "mut"? modifier? name (":" expr)?
    modifier   → "&" "mut"? | "+" ">"? | ">" | "[" path "]" ("&" "mut"?)?
    path       → "::"? name (("::" | ".") name)*

Inside a group the expression of an entry is the name of a source field.
-/

namespace FieldComposition.Parser

/-- What a field list may hold, and the token that ends it. -/
structure ListRule where
  close : TokenKind
  allowBase : Bool := false
  allowMut : Bool := false
  deriving Repr

/-- Reads `("::" | ".") name` as often as it occurs; the result is the last token read. -/
def pathSegments (last : Token) : Parser Token :=
  fun src tokens =>
    match tokens with
    | [] => .ok ⟨last, [], Nat.le_refl _⟩
    | t :: rest =>
      if t.kind = .pathSep || t.kind = .dot then
        match (expect .ident .functionPathSegment) src rest with
        | .error e => .error e
        | .ok r =>
          match pathSegments r.value src r.rest with
          | .error e => .error e
          | .ok s => .ok (s.weaken (Nat.le_succ_of_le r.length_le))
      else .ok ⟨last, t :: rest, Nat.le_refl _⟩
termination_by _ tokens => tokens.length
decreasing_by
  have := r.length_le
  simp only [List.length_cons]
  omega

/-- `"[" path "]"`; the result is the text of the path. -/
def customPath : Parser String := do
  let openBracket ← advance
  let first ← current
  if first.kind = .closeBracket then fail .emptyCustomPath openBracket
  let _ ← accept? .pathSep
  let last ← pathSegments (← expect .ident .functionPath)
  let t ← current
  unless t.kind = .closeBracket do fail .customPathNotPlain t
  skip 1
  textBetween first last

def modifier : Parser Modifier := do
  let t ← current
  match t.kind with
  | .amp =>
    skip 1
    return if ← accepts .wordMut then .refMut else .ref
  | .plus =>
    skip 1
    return if ← accepts .greater then .cloneInto else .clone
  | .greater =>
    skip 1
    return .into
  | .openBracket =>
    let path ← customPath
    if ← accepts .amp then
      return if ← accepts .wordMut then .customRefMut path else .customRef path
    else return .custom path
  | _ =>
    if t.kind.isModifierLike then fail (.unknownModifier t.value) t
    else return .direct

/-- The name of an entry after its modifier. -/
def nameAfter (m : Modifier) : Parser Token := do
  let t ← current
  if ← isName t then advance
  else if m.isDirect then fail (.expected .fieldName (found t)) t
  else fail (.expectedNameAfter m.render (found t)) t

/-- A leading `mut`, unless it is itself the name of the entry. -/
def mutMark (stops : List TokenKind) : Parser (Option Token) := do
  let t ← current
  let next ← following
  if t.kind = .wordMut && (← isName t) && (.colon :: .eof :: stops).contains next.kind then
    return none
  else accept? .wordMut

/-- What follows the colon in an entry of a group: the name of a source field. -/
def sourceField (stops : List TokenKind) : Parser Token := do
  let t ← current
  let next ← following
  if (← isName t) && stops.contains next.kind then advance
  else fail .renameNotPlain t

/-- An entry that ends before one of the tokens `stops`. -/
def entry (stops : List TokenKind) (inGroup allowMut : Bool) : Parser Entry := do
  let first ← current
  let mark ← mutMark stops
  if let some t := mark then
    unless allowMut do fail .mutOutsideRebinding t
  let modifier ← modifier
  let name ← nameAfter modifier
  let plain : Entry :=
    { name := name.value, modifier, mutable := mark.isSome, position := first.position }
  if ← accepts .colon then
    if inGroup then
      let source ← sourceField stops
      return { plain with name := source.value, rename := some name.value }
    else
      let value ← capture { stops, sought := .fieldValue name.value }
      return { plain with value := some value }
  else return plain

/-- One more entry of the group that `openBrace` opens. -/
def groupEntry (openBrace : Token) (allowMut : Bool) (entries : List Entry) :
    Parser (List Entry) := do
  let t ← current
  if t.kind = .eof then fail .groupNotClosed openBrace
  if t.kind = .openBrace then fail .groupNested t
  let e ← entry [.comma, .closeBrace] true allowMut
  if (← current).kind = .eof then fail .groupNotClosed openBrace
  return entries ++ [e]

def group (rule : ListRule) : Parser Group := do
  let openBrace ← advance
  let entries ← separated .closeBrace (fun _ => false) .fieldSeparator
    (groupEntry openBrace rule.allowMut) []
  skip 1
  if entries.isEmpty then fail .groupEmpty openBrace
  let t ← current
  unless t.kind = .wordIn do fail .groupWithoutSource t
  skip 1
  let source ← capture { stops := [.comma, rule.close], sought := .groupSource }
  return { entries, source, position := openBrace.position }

/-- One more item of a field list. -/
def item (rule : ListRule) (items : List Item) : Parser (List Item) := do
  let t ← current
  if t.kind = .eof then fail .listNotClosed t
  else if t.kind = .openBrace then
    return items ++ [.group (← group rule)]
  else if t.kind.isCloser then fail (.unbalanced t.value) t
  else
    return items ++ [.entry (← entry [.comma, rule.close] false rule.allowMut)]

/-- The base that ends a field list, if there is one. -/
def base (rule : ListRule) : Parser (Option Expression) := do
  let t ← current
  if t.kind = .dotDot then
    unless rule.allowBase do fail .baseNotAllowed t
    skip 1
    let base ← capture { stops := [.comma, rule.close], sought := .base }
    let next ← current
    if next.kind = .comma then fail .baseNotLast next
    return some base
  else return none

/-- A field list; the token that ends it stays unread. -/
def fieldList (rule : ListRule) : Parser Composition := do
  let items ← separated rule.close (· == .dotDot) .fieldSeparator (item rule) []
  return { items, base := ← base rule }

/-- A field list that is the whole input, in one pair of braces or without. -/
def wholeFieldList (allowBase allowMut : Bool) : Parser Composition := do
  let tokens ← remaining
  let isBraced := (tokens.head?.map Token.kind) == some .openBrace &&
    Token.matchingClose? tokens == some (tokens.length - 1)
  if isBraced then
    skip 1
    let composition ← fieldList { close := .closeBrace, allowBase, allowMut }
    let _ ← expect .closeBrace .closingBrace
    return composition
  else fieldList { close := .eof, allowBase, allowMut }

end FieldComposition.Parser
