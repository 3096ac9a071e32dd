import FieldComposition.Proofs.AdmittedText

/-!
# Phrases

A phrase is a part of a field list with each of its tokens at the place that gives it its meaning.
It has a list of parts, which are its tokens with their roles, and it stands for an entry, a group
or a composition. Whether it is well formed depends on the kinds of its tokens only, so a phrase
stays well formed when its tokens are replaced by others of the same kinds
(`TextPhrase.IsWellFormed.map`).
-/

namespace FieldComposition

/-- Whether a token of this kind may be a name. -/
def Host.isName (host : Host) (kind : TokenKind) : Bool :=
  kind == .ident || (host.hasSoftKeywords && kind.isSoftKeyword)

/-- What a token of a phrase is: the name of a field, a segment of a function path, or a sign or a
part of host text. -/
inductive Role where
  | name | segment | sign
  deriving DecidableEq, Repr

namespace Role

def signs (ts : List Token) : List (Role × Token) :=
  ts.map (Prod.mk sign)

@[simp] lemma map_snd_signs (ts : List Token) : (signs ts).map Prod.snd = ts := by
  simp [signs, Function.comp_def]

@[simp] lemma map_signs (f : Token → Token) (ts : List Token) :
    (signs ts).map (Prod.map id f) = signs (ts.map f) := by
  simp [signs, Function.comp_def]

end Role

open Role (signs)

/-- A function path in its brackets: names, each but the first one behind a separator. -/
structure PathPhrase where
  openBracket : Token
  root : Option Token := none
  first : Token
  segments : List (Token × Token) := []
  closeBracket : Token

namespace PathPhrase

/-- The parts of the path without its brackets. -/
def path (p : PathPhrase) : List (Role × Token) :=
  signs p.root.toList ++
    (.segment, p.first) :: p.segments.flatMap fun s => [(.sign, s.1), (.segment, s.2)]

def parts (p : PathPhrase) : List (Role × Token) :=
  (.sign, p.openBracket) :: (p.path ++ [(.sign, p.closeBracket)])

structure IsWellFormed (p : PathPhrase) : Prop where
  openBracket : p.openBracket.kind = .openBracket
  root : ∀ t ∈ p.root, t.kind = .pathSep
  first : p.first.kind = .ident
  segments : ∀ s ∈ p.segments, (s.1.kind = .pathSep ∨ s.1.kind = .dot) ∧ s.2.kind = .ident
  closeBracket : p.closeBracket.kind = .closeBracket

def map (f : Token → Token) (p : PathPhrase) : PathPhrase where
  openBracket := f p.openBracket
  root := p.root.map f
  first := f p.first
  segments := p.segments.map (Prod.map f f)
  closeBracket := f p.closeBracket

lemma map_snd_path (p : PathPhrase) : p.path.map Prod.snd =
    p.root.toList ++ p.first :: p.segments.flatMap fun s => [s.1, s.2] := by
  rw [path, List.map_append, Role.map_snd_signs, List.map_cons, List.map_flatMap]
  rfl

/-- A path ends with a name. -/
lemma getLast?_path (p : PathPhrase) : (p.path.map Prod.snd).getLast? =
    some ((p.segments.getLast?.map Prod.snd).getD p.first) := by
  have hlast (segments : List (Token × Token)) (first : Token) :
      (first :: segments.flatMap fun s => [s.1, s.2]).getLast? =
        some ((segments.getLast?.map Prod.snd).getD first) := by
    induction segments generalizing first with
    | nil => rfl
    | cons s segments ih =>
      have hcons : first :: (s :: segments).flatMap (fun s => [s.1, s.2]) =
          first :: s.1 :: s.2 :: segments.flatMap fun s => [s.1, s.2] := rfl
      rw [hcons, List.getLast?_cons_cons, List.getLast?_cons_cons, ih, List.getLast?_cons]
      cases segments.getLast? <;> rfl
  rw [map_snd_path, List.getLast?_append_of_ne_nil _ (List.cons_ne_nil _ _), hlast]

lemma IsWellFormed.kind_last {p : PathPhrase} (h : p.IsWellFormed) :
    ∀ t ∈ (p.path.map Prod.snd).getLast?, t.kind = .ident := by
  intro t ht
  obtain rfl := Option.some.inj (p.getLast?_path.symm.trans ht)
  cases hsegment : p.segments.getLast? with
  | none => exact h.first
  | some s => exact (h.segments s (List.mem_of_getLast? hsegment)).2

/-- The text of a path goes from its first token to its last name. -/
lemma textOf_path {text : String} (p : PathPhrase) :
    Token.textOf text (p.path.map Prod.snd) =
      Text.slice text (p.root.getD p.first).start
        ((p.segments.getLast?.map Prod.snd).getD p.first).stop := by
  refine Token.textOf_eq ?_ p.getLast?_path
  rw [map_snd_path]
  cases p.root <;> rfl

end PathPhrase

/-- The modifier that signs stand for, with a function path before them or without. -/
def Modifier.Kind.ofSigns? : (hasPath : Bool) → List TokenKind → Option Modifier.Kind
  | false, [] => some .direct
  | false, [.plus] => some .clone
  | false, [.plus, .greater] => some .cloneInto
  | false, [.greater] => some .into
  | false, [.amp] => some .ref
  | false, [.amp, .wordMut] => some .refMut
  | true, [] => some .custom
  | true, [.amp] => some .customRef
  | true, [.amp, .wordMut] => some .customRefMut
  | _, _ => none

/-- The modifier of a kind; the path counts for custom modifiers only. -/
def Modifier.Kind.withPath (path : String) : Modifier.Kind → Modifier
  | direct => .direct
  | clone => .clone
  | ref => .ref
  | refMut => .refMut
  | into => .into
  | cloneInto => .cloneInto
  | custom => .custom path
  | customRef => .customRef path
  | customRefMut => .customRefMut path

structure ModifierPhrase where
  path : Option PathPhrase := none
  signs : List Token := []

namespace ModifierPhrase

def parts (p : ModifierPhrase) : List (Role × Token) :=
  p.path.elim [] PathPhrase.parts ++ Role.signs p.signs

/-- The parts whose text the modifier holds. -/
def runs (p : ModifierPhrase) : List (List (Role × Token)) :=
  p.path.toList.map PathPhrase.path

def kind? (p : ModifierPhrase) : Option Modifier.Kind :=
  Modifier.Kind.ofSigns? p.path.isSome (p.signs.map Token.kind)

def modifier (text : String) (p : ModifierPhrase) : Modifier :=
  (p.kind?.getD .direct).withPath
    (p.path.elim "" fun b => Token.textOf text (b.path.map Prod.snd))

lemma modifier_eq {text : String} {p : ModifierPhrase} {kind : Modifier.Kind}
    (h : p.kind? = some kind) : p.modifier text =
      kind.withPath (p.path.elim "" fun b => Token.textOf text (b.path.map Prod.snd)) := by
  rw [modifier, h, Option.getD_some]

structure IsWellFormed (p : ModifierPhrase) : Prop where
  path : ∀ b ∈ p.path, b.IsWellFormed
  kind : p.kind?.isSome

def map (f : Token → Token) (p : ModifierPhrase) : ModifierPhrase where
  path := p.path.map (PathPhrase.map f)
  signs := p.signs.map f

end ModifierPhrase

/-- What follows the name of an entry: the field of the source that it is taken from, in a group, or
a value. -/
inductive EntryTail where
  | nothing
  | source (colon field : Token)
  | value (colon : Token) (tokens : List Token)

namespace EntryTail

def parts : EntryTail → List (Role × Token)
  | nothing => []
  | source colon field => [(.sign, colon), (.name, field)]
  | value colon ts => signs (colon :: ts)

def runs : EntryTail → List (List (Role × Token))
  | nothing | source .. => []
  | value _ ts => [signs ts]

/-- The entry that has so far been read as `plain`. -/
def complete (nameOf : Token → String) (text : String) (plain : Entry) : EntryTail → Entry
  | nothing => plain
  | source _ field => { plain with name := nameOf field, rename := some plain.name }
  | value _ ts => { plain with value := some (.ofTokens text ts) }

def IsWellFormed (host : Host) (stops : List TokenKind) (inGroup : Bool) (name : String) :
    EntryTail → Prop
  | nothing => True
  | source colon field => inGroup ∧ colon.kind = .colon ∧ host.isName field.kind
  | value colon ts => inGroup = false ∧ colon.kind = .colon ∧
      Parser.CaptureRule.Admits { stops, sought := .fieldValue name } ts

def map (f : Token → Token) : EntryTail → EntryTail
  | nothing => nothing
  | source colon field => source (f colon) (f field)
  | value colon ts => value (f colon) (ts.map f)

end EntryTail

structure EntryPhrase where
  mark : Option Token
  modifier : ModifierPhrase
  name : Token
  tail : EntryTail

namespace EntryPhrase

def parts (p : EntryPhrase) : List (Role × Token) :=
  signs p.mark.toList ++ (p.modifier.parts ++ (.name, p.name) :: p.tail.parts)

def tokens (p : EntryPhrase) : List Token :=
  p.parts.map Prod.snd

lemma tokens_eq (p : EntryPhrase) : p.tokens =
    p.mark.toList ++ (p.modifier.parts.map Prod.snd ++ p.name :: p.tail.parts.map Prod.snd) := by
  simp [tokens, parts]

def runs (p : EntryPhrase) : List (List (Role × Token)) :=
  p.modifier.runs ++ p.tail.runs

/-- The entry that a phrase of a text stands for, when the name of a token is `nameOf` of it. -/
def entry (nameOf : Token → String) (text : String) (p : EntryPhrase) : Entry :=
  p.tail.complete nameOf text
    { name := nameOf p.name
      modifier := p.modifier.modifier text
      mutable := p.mark.isSome
      position := (p.tokens.headD p.name).position }

structure IsWellFormed (host : Host) (stops : List TokenKind) (inGroup allowMut : Bool)
    (p : EntryPhrase) : Prop where
  mark : ∀ t ∈ p.mark, t.kind = .wordMut ∧ allowMut
  modifier : p.modifier.IsWellFormed
  name : host.isName p.name.kind
  /-- Right behind `&` the word `mut` belongs to the modifier. -/
  name_ne_mut : p.modifier.signs.getLast?.map Token.kind = some .amp → p.name.kind ≠ .wordMut
  tail : p.tail.IsWellFormed host stops inGroup p.name.value

def map (f : Token → Token) (p : EntryPhrase) : EntryPhrase where
  mark := p.mark.map f
  modifier := p.modifier.map f
  name := f p.name
  tail := p.tail.map f

end EntryPhrase

/-- Phrases with a comma behind each of them, but for the last one where there is none. -/
structure CommaList (α : Type) where
  closed : List (α × Token)
  last : Option α

namespace CommaList

variable {α : Type}

def items (l : CommaList α) : List α :=
  l.closed.map Prod.fst ++ l.last.toList

/-- The parts of phrases with a comma behind each of them. -/
def closedParts (part : α → List (Role × Token)) (closed : List (α × Token)) :
    List (Role × Token) :=
  closed.flatMap fun item => part item.1 ++ [(.sign, item.2)]

def parts (part : α → List (Role × Token)) (l : CommaList α) : List (Role × Token) :=
  closedParts part l.closed ++ l.last.elim [] part

/-- A list may end before its closing token, and behind a comma before a token that stops it. -/
def EndsBefore (close : TokenKind) (stops : TokenKind → Bool) (l : CommaList α)
    (kind : TokenKind) : Prop :=
  kind = close ∨ (stops kind ∧ l.last = none)

structure IsWellFormed (ok : α → Prop) (l : CommaList α) : Prop where
  comma : ∀ item ∈ l.closed, item.2.kind = .comma
  items : ∀ a ∈ l.items, ok a

def map (f : Token → Token) (g : α → α) (l : CommaList α) : CommaList α where
  closed := l.closed.map (Prod.map g f)
  last := l.last.map g

end CommaList

structure GroupPhrase where
  openBrace : Token
  entries : CommaList EntryPhrase
  closeBrace : Token
  wordIn : Token
  source : List Token

namespace GroupPhrase

def parts (p : GroupPhrase) : List (Role × Token) :=
  (.sign, p.openBrace) ::
    (p.entries.parts EntryPhrase.parts ++ signs (p.closeBrace :: p.wordIn :: p.source))

def tokens (p : GroupPhrase) : List Token :=
  p.parts.map Prod.snd

lemma tokens_eq (p : GroupPhrase) : p.tokens =
    p.openBrace :: ((p.entries.parts EntryPhrase.parts).map Prod.snd ++
      p.closeBrace :: p.wordIn :: p.source) := by
  simp [tokens, parts]

def runs (p : GroupPhrase) : List (List (Role × Token)) :=
  p.entries.items.flatMap EntryPhrase.runs ++ [signs p.source]

def group (nameOf : Token → String) (text : String) (p : GroupPhrase) : Group where
  entries := p.entries.items.map (EntryPhrase.entry nameOf text)
  source := .ofTokens text p.source
  position := p.openBrace.position

structure IsWellFormed (host : Host) (rule : Parser.ListRule) (p : GroupPhrase) : Prop where
  openBrace : p.openBrace.kind = .openBrace
  entries : p.entries.IsWellFormed
    (EntryPhrase.IsWellFormed host [.comma, .closeBrace] true rule.allowMut)
  entries_ne_nil : p.entries.items ≠ []
  closeBrace : p.closeBrace.kind = .closeBrace
  wordIn : p.wordIn.kind = .wordIn
  source : Parser.CaptureRule.Admits { stops := [.comma, rule.close], sought := .groupSource }
    p.source

def map (f : Token → Token) (p : GroupPhrase) : GroupPhrase where
  openBrace := f p.openBrace
  entries := p.entries.map f (EntryPhrase.map f)
  closeBrace := f p.closeBrace
  wordIn := f p.wordIn
  source := p.source.map f

end GroupPhrase

inductive ItemPhrase where
  | entry (p : EntryPhrase)
  | group (p : GroupPhrase)

namespace ItemPhrase

def parts : ItemPhrase → List (Role × Token)
  | entry p => p.parts
  | group p => p.parts

def tokens (p : ItemPhrase) : List Token :=
  p.parts.map Prod.snd

def runs : ItemPhrase → List (List (Role × Token))
  | entry p => p.runs
  | group p => p.runs

def item (nameOf : Token → String) (text : String) : ItemPhrase → Item
  | entry p => .entry (p.entry nameOf text)
  | group p => .group (p.group nameOf text)

def IsWellFormed (host : Host) (rule : Parser.ListRule) : ItemPhrase → Prop
  | entry p => p.IsWellFormed host [.comma, rule.close] false rule.allowMut
  | group p => p.IsWellFormed host rule

def map (f : Token → Token) : ItemPhrase → ItemPhrase
  | entry p => entry (p.map f)
  | group p => group (p.map f)

end ItemPhrase

/-- Items and the base behind them, which a `..` introduces. -/
structure ListPhrase where
  items : CommaList ItemPhrase
  base : Option (Token × List Token)

namespace ListPhrase

def parts (p : ListPhrase) : List (Role × Token) :=
  p.items.parts ItemPhrase.parts ++ p.base.elim [] fun base => signs (base.1 :: base.2)

def tokens (p : ListPhrase) : List Token :=
  p.parts.map Prod.snd

lemma tokens_eq (p : ListPhrase) : p.tokens =
    (p.items.parts ItemPhrase.parts).map Prod.snd ++
      p.base.elim [] fun base => base.1 :: base.2 := by
  rw [tokens, parts, List.map_append]
  cases p.base <;> simp

def runs (p : ListPhrase) : List (List (Role × Token)) :=
  p.items.items.flatMap ItemPhrase.runs ++ p.base.toList.map fun base => signs base.2

def composition (nameOf : Token → String) (text : String) (p : ListPhrase) : Composition where
  items := p.items.items.map (ItemPhrase.item nameOf text)
  base := p.base.map fun base => .ofTokens text base.2

structure IsWellFormed (host : Host) (rule : Parser.ListRule) (p : ListPhrase) : Prop where
  items : p.items.IsWellFormed (ItemPhrase.IsWellFormed host rule)
  base : ∀ b ∈ p.base, rule.allowBase ∧ p.items.last = none ∧ b.1.kind = .dotDot ∧
    Parser.CaptureRule.Admits { stops := [.comma, rule.close], sought := .base } b.2

def map (f : Token → Token) (p : ListPhrase) : ListPhrase where
  items := p.items.map f (ItemPhrase.map f)
  base := p.base.map (Prod.map f (List.map f))

end ListPhrase

/-- A field list that is a whole text, which one pair of braces may stand around. -/
structure TextPhrase where
  braces : Option (Token × Token)
  list : ListPhrase

namespace TextPhrase

def parts (p : TextPhrase) : List (Role × Token) :=
  p.braces.elim p.list.parts fun b => (.sign, b.1) :: (p.list.parts ++ [(.sign, b.2)])

def tokens (p : TextPhrase) : List Token :=
  p.parts.map Prod.snd

lemma tokens_eq (p : TextPhrase) : p.tokens =
    p.braces.elim p.list.tokens fun b => b.1 :: (p.list.tokens ++ [b.2]) := by
  rw [tokens, parts]
  cases p.braces with
  | none => rfl
  | some b => simp [ListPhrase.tokens]

/-- What ends the list. -/
def rule (allowBase allowMut : Bool) (p : TextPhrase) : Parser.ListRule where
  close := if p.braces.isSome then .closeBrace else .eof
  allowBase := allowBase
  allowMut := allowMut

structure IsWellFormed (host : Host) (allowBase allowMut : Bool) (p : TextPhrase) : Prop where
  braces : ∀ b ∈ p.braces, b.1.kind = .openBrace ∧ b.2.kind = .closeBrace
  list : p.list.IsWellFormed host (p.rule allowBase allowMut)

def map (f : Token → Token) (p : TextPhrase) : TextPhrase where
  braces := p.braces.map (Prod.map f f)
  list := p.list.map f

/-- The phrase is how a text is read as a field list. -/
structure Reads (host : Host) (allowBase allowMut : Bool) (text : String) (p : TextPhrase) : Prop
    where
  wellFormed : p.IsWellFormed host allowBase allowMut
  tokens_eq_body : ∃ eof, Tokens.ofText host text = .ok ⟨p.tokens, eof⟩

/-- The composition that a phrase of a text stands for. -/
def composition (text : String) (p : TextPhrase) : Composition :=
  p.list.composition Token.value text

end TextPhrase

end FieldComposition
