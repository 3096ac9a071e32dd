import FieldComposition.Proofs.TokenStream
import Mathlib.Data.List.Forall2

/-!
# Layouts

A layout is a text that has been split into tokens. Two layouts of the same tokens differ in blanks
and comments only; what is read from them is alike (`Invocation.Alike`) when it differs only in
the texts and positions that it holds, and these belong to the same tokens.
-/

namespace FieldComposition

lemma forall₂_snoc {α β : Type} {V : α → β → Prop} {as : List α} {bs : List β} {a : α} {b : β}
    (h : List.Forall₂ V as bs) (hab : V a b) : List.Forall₂ V (as ++ [a]) (bs ++ [b]) :=
  List.rel_append h (.cons hab .nil)

lemma isEmpty_eq_of_forall₂ {α β : Type} {V : α → β → Prop} {as : List α} {bs : List β}
    (h : List.Forall₂ V as bs) : as.isEmpty = bs.isEmpty := by
  cases h <;> rfl

lemma isSome_eq_of_rel {α β : Type} {V : α → β → Prop} {a? : Option α} {b? : Option β}
    (h : Option.Rel V a? b?) : a?.isSome = b?.isSome := by
  cases h <;> rfl

/-- What of a token does not depend on where it stands. -/
def Token.lexeme (t : Token) : TokenKind × String :=
  (t.kind, t.value)

structure Layout extends Source where
  body : List Token
  deriving DecidableEq, Repr

namespace Layout

/-- The token of an index; the one that stands for the end follows the others. -/
def tokenAt (l : Layout) (n : Nat) : Token :=
  (l.body.drop n).headD l.eof

/-- The text from the start of one token to the end of another. -/
def textBetween (l : Layout) (i j : Nat) : String :=
  Text.slice l.text (l.tokenAt i).start (l.tokenAt j).stop

/-- Positions at which a token of the same index starts, the end included. -/
def SamePlace (l l' : Layout) (p p' : Position) : Prop :=
  ∃ n, p = (l.tokenAt n).position ∧ p' = (l'.tokenAt n).position

/-- Positions at which a token of the same index starts that is not the end. -/
def SameToken (l l' : Layout) (p p' : Position) : Prop :=
  ∃ n < l.body.length, p = (l.tokenAt n).position ∧ p' = (l'.tokenAt n).position

/-- Texts that run over the same tokens. -/
def SameText (l l' : Layout) (s s' : String) : Prop :=
  ∃ i j, i ≤ j ∧ j < l.body.length ∧ s = l.textBetween i j ∧ s' = l'.textBetween i j

/-- Errors of the same class at the same tokens. -/
def SameError (l l' : Layout) : ReadError → ReadError → Prop
  | .fault _ p, .fault _ p' => l.SamePlace l' p p'
  | .repeatedName _ first second, .repeatedName _ first' second' =>
    l.SamePlace l' first first' ∧ l.SamePlace l' second second'
  | _, _ => False

variable {l : Layout} {n : Nat}

lemma drop_eq_cons (h : n < l.body.length) :
    l.body.drop n = l.tokenAt n :: l.body.drop (n + 1) := by
  rw [List.drop_eq_getElem_cons h, tokenAt, List.drop_eq_getElem_cons h]
  rfl

lemma tokenAt_mem (h : n < l.body.length) : l.tokenAt n ∈ l.body := by
  have hmem : l.tokenAt n ∈ l.body.drop n := by
    rw [drop_eq_cons h]
    exact List.mem_cons_self
  exact List.mem_of_mem_drop hmem

lemma tokenAt_of_le (h : l.body.length ≤ n) : l.tokenAt n = l.eof := by
  rw [tokenAt, List.drop_eq_nil_of_le h]
  rfl

end Layout

variable (l l' : Layout)

/-- Expressions that run over the same tokens. -/
def Expression.Alike (e e' : Expression) : Prop :=
  ∃ i j, i ≤ j ∧ j < l.body.length ∧
    e = ⟨l.textBetween i j, (l.tokenAt i).position⟩ ∧
    e' = ⟨l'.textBetween i j, (l'.tokenAt i).position⟩

/-- Modifiers of one kind, with paths that run over the same tokens. -/
structure Modifier.Alike (m m' : Modifier) : Prop where
  kind : m.kind = m'.kind
  path : Option.Rel (l.SameText l') m.path? m'.path?

structure Entry.Alike (e e' : Entry) : Prop where
  name : e.name = e'.name
  modifier : e.modifier.Alike l l' e'.modifier
  rename : e.rename = e'.rename
  value : Option.Rel (Expression.Alike l l') e.value e'.value
  mutable : e.mutable = e'.mutable
  position : l.SameToken l' e.position e'.position

structure Group.Alike (g g' : Group) : Prop where
  entries : List.Forall₂ (Entry.Alike l l') g.entries g'.entries
  source : g.source.Alike l l' g'.source
  position : l.SameToken l' g.position g'.position

def Item.Alike : Item → Item → Prop
  | entry e, entry e' => e.Alike l l' e'
  | group g, group g' => g.Alike l l' g'
  | _, _ => False

structure Composition.Alike (c c' : Composition) : Prop where
  items : List.Forall₂ (Item.Alike l l') c.items c'.items
  base : Option.Rel (Expression.Alike l l') c.base c'.base

def Expected.Alike : Expected → Expected → Prop
  | value e fields, value e' fields' => e.Alike l l' e' ∧ fields = fields'
  | record c, record c' => c.Alike l l' c'
  | _, _ => False

structure Assertion.Alike (a a' : Assertion) : Prop where
  actual : a.actual.Alike l l' a'.actual
  expected : a.expected.Alike l l' a'.expected
  formatArgs : List.Forall₂ (Expression.Alike l l') a.formatArgs a'.formatArgs

/-- Invocations of one structure whose texts run over the same tokens. Holders are left out: the
two closing angle brackets that end their generics at once may be parts of one token. -/
def Invocation.Alike : Invocation → Invocation → Prop
  | structUpdate typePath c, structUpdate typePath' c' =>
    typePath.Alike l l' typePath' ∧ c.Alike l l' c'
  | anonRecord c, anonRecord c' => c.Alike l l' c'
  | rebinding c, rebinding c' => c.Alike l l' c'
  | assertion a, assertion a' => a.Alike l l' a'
  | _, _ => False

end FieldComposition
