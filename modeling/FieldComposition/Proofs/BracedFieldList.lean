import FieldComposition.Proofs.EmbeddedText
import FieldComposition.Proofs.LayoutIndependence

/-!
# Field lists in braces

All entry points read the same field lists. A field list without braces is read in the same way when
it stands in braces, alone or as part of an invocation (`Composition.ofText_in_braces`): positions
on the first line move behind the text before it, and nothing else changes.
-/

namespace FieldComposition

/-- The tokens of a text and of the opening brace behind it. -/
structure Opening (host : Host) (before : String) (front : List Token) : Prop where
  scan_append : ∀ cs, Tokens.scan host 0 .start (before.toList ++ ['{'] ++ cs) =
    (Tokens.scan host (before.length + 1) (Position.start.shift (before.length + 1)) cs).map
      (Tokens.append front)

namespace Lexeme

variable {host : Host} {cs : List Char}

lemma read_blank : read host ' ' cs = .ok ⟨none, 0⟩ := rfl

lemma read_openBrace : read host '{' cs = .ok ⟨some .openBrace, 0⟩ := by
  have hword : Text.isWordStart '{' = false := Text.isWordStart_eq_false (by decide)
  unfold read
  rw [if_neg (by decide), isPrefixOf_commentMark (by decide), hword]
  rfl

lemma read_comma : read host ',' cs = .ok ⟨some .comma, 0⟩ := by
  have hword : Text.isWordStart ',' = false := Text.isWordStart_eq_false (by decide)
  unfold read
  rw [if_neg (by decide), isPrefixOf_commentMark (by decide), hword]
  rfl

/-- A letter before a blank or a comma is a name. -/
lemma read_letter {c next : Char} (h : (c, next) ∈ [('X', ' '), ('x', ',')]) :
    read host c (next :: cs) = .ok ⟨some .ident, 0⟩ := by
  have hletter : ∀ pair ∈ [('X', ' '), ('x', ',')], isLayout pair.1 = false ∧
      (pair.1 ≠ '#' ∧ pair.1 ≠ '/') ∧ pair.1 ≠ '\'' ∧ pair.1 ≠ '"' ∧ pair.1.isDigit = false ∧
      Text.isWordStart pair.1 ∧ Text.isWordChar pair.2 = false ∧ Text.isIdentifier [pair.1] ∧
      (keyword? (String.singleton pair.1)).getD .ident = .ident := by decide +kernel
  obtain ⟨hlayout, hmark, hquote, hdouble, hdigit, hstart, hnext, hidentifier, hkeyword⟩ :=
    hletter _ h
  dsimp only at *
  unfold read word
  simp [hlayout, isPrefixOf_commentMark hmark, hquote, hdouble, hdigit, hstart, hnext, hidentifier,
    hkeyword]

end Lexeme

variable {host : Host}

namespace Tokens

variable {offset : Nat} {p : Position} {c : Char} {rest : List Char}

/-- One character that is a token, and the tokens behind it. -/
lemma scan_char {kind : TokenKind} (h : Lexeme.read host c rest = .ok ⟨some kind, 0⟩) :
    scan host offset p (c :: rest) =
      (scan host (offset + 1) (p.step c) rest).map
        (append [⟨kind, String.ofList [c], offset, offset + 1, p⟩]) :=
  scan_cons h

lemma scan_layout (h : Lexeme.read host c rest = .ok ⟨none, 0⟩) :
    scan host offset p (c :: rest) = scan host (offset + 1) (p.step c) rest := by
  rw [scan_cons h]
  exact congrFun Except.map_id _

end Tokens

lemma opening_empty : Opening host "" [⟨.openBrace, "\x7b", 0, 1, ⟨1, 1⟩⟩] := by
  constructor
  intro cs
  change Tokens.scan host 0 .start ('{' :: cs) = _
  rw [Tokens.scan_char Lexeme.read_openBrace]
  rfl

lemma opening_type : Opening host "X "
    [⟨.ident, "X", 0, 1, ⟨1, 1⟩⟩, ⟨.openBrace, "\x7b", 2, 3, ⟨1, 3⟩⟩] := by
  constructor
  intro cs
  change Tokens.scan host 0 .start ('X' :: ' ' :: '{' :: cs) = _
  rw [Tokens.scan_char (Lexeme.read_letter (by decide)), Tokens.scan_layout Lexeme.read_blank,
    Tokens.scan_char Lexeme.read_openBrace]
  change Except.map _ (Except.map _ (Tokens.scan host 3 ⟨1, 4⟩ cs)) =
    Except.map _ (Tokens.scan host 3 ⟨1, 4⟩ cs)
  cases Tokens.scan host 3 ⟨1, 4⟩ cs <;> rfl

lemma opening_actual : Opening host "x, "
    [⟨.ident, "x", 0, 1, ⟨1, 1⟩⟩, ⟨.comma, ",", 1, 2, ⟨1, 2⟩⟩,
      ⟨.openBrace, "\x7b", 3, 4, ⟨1, 4⟩⟩] := by
  constructor
  intro cs
  change Tokens.scan host 0 .start ('x' :: ',' :: ' ' :: '{' :: cs) = _
  rw [Tokens.scan_char (Lexeme.read_letter (by decide)), Tokens.scan_char Lexeme.read_comma,
    Tokens.scan_layout Lexeme.read_blank, Tokens.scan_char Lexeme.read_openBrace]
  change Except.map _ (Except.map _ (Except.map _ (Tokens.scan host 4 ⟨1, 5⟩ cs))) =
    Except.map _ (Tokens.scan host 4 ⟨1, 5⟩ cs)
  cases Tokens.scan host 4 ⟨1, 5⟩ cs <;> rfl

/-- A brace on a line of its own, and the end behind it. -/
lemma Tokens.scan_closing (host : Host) (offset : Nat) (p : Position) :
    ∃ closing eof, closing.kind = .closeBrace ∧ eof.kind = .eof ∧
      scan host offset p ['\n', '}'] = .ok ⟨[closing], eof⟩ := by
  have hnewline : Lexeme.read host '\n' ['}'] = .ok ⟨none, 0⟩ := rfl
  have hbrace : Lexeme.read host '}' [] = .ok ⟨some .closeBrace, 0⟩ := by
    rcases host with (_ | _) | _ <;> decide +kernel
  refine ⟨⟨.closeBrace, "\x7d", offset + 1, offset + 2, ⟨p.line + 1, 1⟩⟩,
    ⟨.eof, "", offset + 2, offset + 2, ⟨p.line + 1, 2⟩⟩, rfl, rfl, ?_⟩
  rw [scan_layout hnewline, scan_char hbrace, scan]
  rfl

/-- A text in braces behind another text; the closing brace stands on a line of its own. -/
def braced (before text : String) : String :=
  before ++ "\x7b" ++ text ++ "\n\x7d"

lemma toList_braced (before text : String) :
    (braced before text).toList = (before.toList ++ ['{']) ++ (text.toList ++ ['\n', '}']) := by
  simp [braced]

/-- The tokens of a text in braces are those of the text, moved behind what stands before it, and a
closing brace. -/
lemma Opening.ofText_braced {before text : String} {front : List Token} {tokens : Tokens}
    (h : Opening host before front)
    (htokens : Tokens.ofText host text = .ok tokens) :
    ∃ closing eof, closing.kind = .closeBrace ∧ eof.kind = .eof ∧
      Tokens.ofText host (braced before text) = .ok
        ⟨front ++ (tokens.body.map (Token.shift (before.length + 1)) ++ [closing]), eof⟩ := by
  have hshift := Tokens.scan_shift (k := before.length + 1) (by decide) htokens
  rw [Nat.zero_add] at hshift
  have hscan := Tokens.scan_append_newline hshift ['}']
  obtain ⟨closing, eof, hclosing, heof, hend⟩ := Tokens.scan_closing host _ _
  rw [hend] at hscan
  refine ⟨closing, eof, hclosing, heof, ?_⟩
  rw [Tokens.ofText, toList_braced, h.scan_append, hscan]
  rfl

def Expression.shift (k : Nat) (e : Expression) : Expression :=
  { e with position := e.position.shift k }

def Entry.shift (k : Nat) (e : Entry) : Entry :=
  { e with value := e.value.map (Expression.shift k), position := e.position.shift k }

def Group.shift (k : Nat) (g : Group) : Group where
  entries := g.entries.map (Entry.shift k)
  source := g.source.shift k
  position := g.position.shift k

def Item.shift (k : Nat) : Item → Item
  | entry e => entry (e.shift k)
  | group g => group (g.shift k)

/-- The composition of a field list behind `k` characters. -/
def Composition.shift (k : Nat) (c : Composition) : Composition where
  items := c.items.map (Item.shift k)
  base := c.base.map (Expression.shift k)

lemma Composition.isEmpty_shift (k : Nat) (c : Composition) : (c.shift k).isEmpty = c.isEmpty :=
  List.isEmpty_map

lemma eq_map_of_rel {α β : Type} {V : α → β → Prop} {f : α → β} (hf : ∀ a b, V a b → b = f a)
    {a? : Option α} {b? : Option β} (h : Option.Rel V a? b?) : b? = a?.map f := by
  cases h with
  | some h => rw [hf _ _ h, Option.map_some]
  | none => rfl

lemma eq_map_of_forall₂ {α β : Type} {V : α → β → Prop} {f : α → β} (hf : ∀ a b, V a b → b = f a)
    {as : List α} {bs : List β} (h : List.Forall₂ V as bs) : bs = as.map f := by
  induction h with
  | nil => rfl
  | cons hab _ ih => rw [hf _ _ hab, ih, List.map_cons]

lemma Modifier.eq_of_kind {m m' : Modifier} (hkind : m.kind = m'.kind)
    (hpath : m.path? = m'.path?) : m = m' := by
  cases m <;> cases m' <;> simp_all [kind, path?]

/-- The tokens of one layout stand behind `k` characters in another one. -/
structure Layout.Shifts (k : Nat) (l l' : Layout) : Prop where
  position_eq : ∀ n < l.body.length, (l'.tokenAt n).position = (l.tokenAt n).position.shift k
  textBetween_eq : ∀ i j, i ≤ j → j < l.body.length → l'.textBetween i j = l.textBetween i j

section

variable {k : Nat} {l l' : Layout} (hl : l.Shifts k l')

include hl

lemma Layout.SameToken.eq_shift {p p' : Position} (h : l.SameToken l' p p') : p' = p.shift k := by
  obtain ⟨n, hn, rfl, rfl⟩ := h
  exact hl.position_eq n hn

lemma Layout.SameText.eq {s s' : String} (h : l.SameText l' s s') : s' = s := by
  obtain ⟨i, j, hij, hj, rfl, rfl⟩ := h
  exact hl.textBetween_eq i j hij hj

lemma Expression.Alike.eq_shift {e e' : Expression} (h : e.Alike l l' e') : e' = e.shift k := by
  obtain ⟨i, j, hij, hj, rfl, rfl⟩ := h
  rw [hl.textBetween_eq i j hij hj, hl.position_eq i (hij.trans_lt hj)]
  rfl

lemma Modifier.Alike.eq {m m' : Modifier} (h : m.Alike l l' m') : m' = m := by
  refine (Modifier.eq_of_kind h.kind ?_).symm
  rw [eq_map_of_rel (f := id) (fun _ _ h => h.eq hl) h.path, Option.map_id]
  rfl

lemma Entry.Alike.eq_shift {e e' : Entry} (h : e.Alike l l' e') : e' = e.shift k := by
  have hvalue := eq_map_of_rel (fun _ _ h => Expression.Alike.eq_shift hl h) h.value
  cases e'
  rw [shift, ← h.position.eq_shift hl, ← hvalue, h.name, ← h.modifier.eq hl, h.rename, h.mutable]

lemma Group.Alike.eq_shift {g g' : Group} (h : g.Alike l l' g') : g' = g.shift k := by
  have hentries := eq_map_of_forall₂ (fun _ _ h => Entry.Alike.eq_shift hl h) h.entries
  cases g'
  rw [shift, ← h.position.eq_shift hl, ← h.source.eq_shift hl, ← hentries]

lemma Item.Alike.eq_shift {i i' : Item} (h : i.Alike l l' i') : i' = i.shift k := by
  cases i with
  | entry e =>
    cases i' with
    | entry e' => exact congrArg entry (Entry.Alike.eq_shift hl h)
    | group g' => exact h.elim
  | group g =>
    cases i' with
    | entry e' => exact h.elim
    | group g' => exact congrArg group (Group.Alike.eq_shift hl h)

lemma Composition.Alike.eq_shift {c c' : Composition} (h : c.Alike l l' c') : c' = c.shift k := by
  have hitems := eq_map_of_forall₂ (fun _ _ h => Item.Alike.eq_shift hl h) h.items
  have hbase := eq_map_of_rel (fun _ _ h => Expression.Alike.eq_shift hl h) h.base
  cases c'
  rw [shift, ← hitems, ← hbase]

end

/-- A part of a text that stands in another one. -/
lemma Text.slice_inside {text text' : String} {before behind : List Char}
    (h : text'.toList = before ++ (text.toList ++ behind)) {i j : Nat}
    (hj : j ≤ text.toList.length) :
    slice text' (i + before.length) (j + before.length) = slice text i j := by
  rw [slice, slice, h, Nat.add_sub_add_right, Nat.add_comm, List.drop_length_add_append]
  by_cases hij : i ≤ j
  · rw [List.drop_append_of_le_length (hij.trans hj), List.take_append_of_le_length]
    rw [List.length_drop]
    omega
  · have hempty : j - i = 0 := by omega
    rw [hempty, List.take_zero, List.take_zero]

/-- A text of the first layout stands in the second one. -/
lemma Tokens.shifts_braced {before text : String} {tokens : Tokens} {eof : Token}
    (htokens : ofText host text = .ok tokens) :
    (tokens.layout host text).Shifts (before.length + 1)
      ⟨⟨host, braced before text, eof⟩, tokens.body.map (Token.shift (before.length + 1))⟩ := by
  have hright {n : Nat} (hn : n < tokens.body.length) :
      Layout.tokenAt ⟨⟨host, braced before text, eof⟩,
          tokens.body.map (Token.shift (before.length + 1))⟩ n =
        ((tokens.layout host text).tokenAt n).shift (before.length + 1) := by
    rw [Layout.tokenAt, ← List.map_drop, List.drop_eq_getElem_cons hn, Layout.tokenAt,
      Tokens.layout, List.drop_eq_getElem_cons hn]
    rfl
  have hlength : (before.toList ++ ['{']).length = before.length + 1 := by
    rw [List.length_append, String.length_toList]
    rfl
  refine ⟨fun n hn => by rw [hright hn]; rfl, fun i j hij hj => ?_⟩
  have hstop :=
    ((tiled_of_ofText htokens).forall_mem _ (Layout.tokenAt_mem hj)).2.2.1.stop_le_length
  rw [Layout.textBetween, Layout.textBetween, hright hj, hright (hij.trans_lt hj)]
  change Text.slice (braced before text) (_ + (before.length + 1)) (_ + (before.length + 1)) = _
  rw [← hlength]
  exact Text.slice_inside (toList_braced before text) hstop

/-- The tokens of a text, and the same ones before a closing brace. -/
def Tokens.bracedCoupling (before : String) {text : String} {tokens : Tokens} {closing : Token}
    {eof : Token} (htokens : ofText host text = .ok tokens) (hclosing : closing.kind = .closeBrace)
    (heof : eof.kind = .eof) : Coupling where
  left := tokens.layout host text
  right := ⟨⟨host, braced before text, eof⟩, tokens.body.map (Token.shift (before.length + 1))⟩
  tail := [closing]
  host_eq := Eq.refl host
  lexemes_eq := by
    rw [List.map_map]
    rfl
  kind_ne_eof := kind_ne_eof_of_ofText htokens
  left_eof := kind_eof_of_ofText htokens
  right_eof := heof
  closeBrace_of_tail := by simpa using hclosing

/-- The text is one pair of braces and what stands in it. -/
def IsBracePair (host : Host) (text : String) : Prop :=
  ∃ tokens, Tokens.ofText host text = .ok tokens ∧
    tokens.body.head?.map Token.kind = some .openBrace ∧
    Token.matchingClose? tokens.body = some (tokens.body.length - 1)

instance (host : Host) (text : String) : Decidable (IsBracePair host text) :=
  match h : Tokens.ofText host text with
  | .error _ => .isFalse fun ⟨_, htokens, _⟩ => nomatch h.symm.trans htokens
  | .ok tokens =>
    decidable_of_iff (tokens.body.head?.map Token.kind = some .openBrace ∧
        Token.matchingClose? tokens.body = some (tokens.body.length - 1))
      ⟨fun hpair => ⟨tokens, h, hpair⟩, fun ⟨_, htokens, hpair⟩ =>
        Except.ok.inj (h.symm.trans htokens) ▸ hpair⟩

section

variable {text : String} {tokens : Tokens} {c : Composition}

lemma Parser.run_expect {kind : TokenKind} {sought : Sought} {src : Source} {t : Token}
    {rest : List Token} (h : t.kind = kind) :
    (expect kind sought).run src (t :: rest) = .ok (t, rest) := by
  simp [expect, h]

lemma Parser.run_expectEnd {src : Source} {rest : List Token}
    (h : (rest.headD src.eof).kind = .eof) : expectEnd.run src rest = .ok ((), rest) := by
  rw [expectEnd, run_bind, run_current]
  dsimp only
  rw [if_pos h]
  rfl

/-- What it takes to read a text that is one field list. -/
lemma run_wholeFieldList_of_ofText {allowBase allowMut : Bool}
    (htokens : Tokens.ofText host text = .ok tokens)
    (hread : Composition.ofText allowBase allowMut host text = .ok c) :
    ∃ rest, (Parser.wholeFieldList allowBase allowMut).run ⟨host, text, tokens.eof⟩ tokens.body =
        .ok (c, rest) ∧ (rest.headD tokens.eof).kind = .eof := by
  rw [Composition.ofText, Parser.onText, htokens] at hread
  dsimp only at hread
  rw [Parser.run_bind] at hread
  rcases hrun : (Parser.wholeFieldList allowBase allowMut).run ⟨host, text, tokens.eof⟩ tokens.body with
    e | ⟨c', rest⟩
  · rw [hrun] at hread
    cases hread
  rw [hrun] at hread
  dsimp only at hread
  rw [Parser.run_bind, Parser.expectEnd, Parser.run_bind, Parser.run_current] at hread
  dsimp only at hread
  by_cases heof : (rest.headD tokens.eof).kind = .eof
  · rw [if_pos heof] at hread
    obtain rfl := Except.ok.inj hread
    exact ⟨rest, rfl, heof⟩
  · rw [if_neg heof] at hread
    cases hread

lemma run_wholeFieldList_of_bare (htokens : Tokens.ofText host text = .ok tokens)
    (hbare : ¬IsBracePair host text) (src : Source) :
    (Parser.wholeFieldList false false).run src tokens.body =
      (Parser.fieldList { close := .eof }).run src tokens.body := by
  have hbraced : ¬(tokens.body.head?.map Token.kind == some .openBrace &&
      Token.matchingClose? tokens.body == some (tokens.body.length - 1)) = true := by
    rw [Bool.and_eq_true, beq_iff_eq, beq_iff_eq]
    exact fun h => hbare ⟨tokens, htokens, h⟩
  rw [Parser.wholeFieldList, Parser.run_bind, Parser.run_remaining]
  dsimp only
  rw [if_neg hbraced]

lemma Token.Closes.map_shift {depth k : Nat} {part : List Token} (h : Closes depth part) :
    Closes depth (part.map (Token.shift k)) := by
  intro outer rest
  have hkinds : (part.map (Token.shift k) ++ rest).map kind = (part ++ rest).map kind := by
    rw [List.map_append, List.map_append, List.map_map]
    rfl
  rw [toClose?_congr hkinds, h, List.length_map]

/-- The field list is read before a closing brace as well, and it closes what it opens. -/
lemma run_fieldList_braced (before : String) {closing eof : Token} (allowBase : Bool)
    (htokens : Tokens.ofText host text = .ok tokens)
    (hread : Composition.ofText false false host text = .ok c) (hbare : ¬IsBracePair host text)
    (hclosing : closing.kind = .closeBrace) (heof : eof.kind = .eof) :
    (Parser.fieldList { close := .closeBrace, allowBase }).run ⟨host, braced before text, eof⟩
        (tokens.body.map (Token.shift (before.length + 1)) ++ [closing]) =
      .ok (c.shift (before.length + 1), [closing]) ∧
      Token.Closes 0 (tokens.body.map (Token.shift (before.length + 1))) := by
  obtain ⟨rest, hrun, hend⟩ := run_wholeFieldList_of_ofText htokens hread
  rw [run_wholeFieldList_of_bare htokens hbare] at hrun
  let C := Tokens.bracedCoupling before htokens hclosing heof
  have hrules : C.SameLists { close := .eof } { close := .closeBrace, allowBase } :=
    ⟨.braced (by simp [C, Tokens.bracedCoupling]), by simp, by simp,
      by simp [C, Tokens.bracedCoupling], rfl, fun _ => rfl⟩
  have hfollows := Parser.Follows.fieldList (n := 0) hrules
  rcases Coupling.Agree.cases hfollows with
    ⟨e, hleft, -⟩ | ⟨m, a, c', hleft, hright, hpasses, halike⟩
  · exact absurd (hrun.symm.trans hleft) (by simp)
  obtain ⟨rfl, rfl⟩ := Prod.mk.inj (Except.ok.inj (hrun.symm.trans hleft))
  have hle : C.left.body.length ≤ m := by
    by_contra hm
    exact Coupling.kind_ne_eof_of_lt (Nat.lt_of_not_le hm) hend
  refine ⟨?_, ?_⟩
  · rw [halike.eq_shift (Tokens.shifts_braced htokens), Coupling.rightFrom_of_le hle] at hright
    exact hright
  · have hcloses := hpasses.2
    rw [List.drop_zero, List.take_of_length_le (by omega)] at hcloses
    exact hcloses.map_shift

/-- A pair of braces is seen as such. -/
lemma Parser.run_wholeFieldList_braced {src : Source} {openBrace closing : Token}
    {body : List Token} (hopen : openBrace.kind = .openBrace)
    (hclosing : closing.kind = .closeBrace) (hcloses : Token.Closes 0 body)
    (hrun : (fieldList { close := .closeBrace }).run src (body ++ [closing]) =
      .ok (c, [closing])) :
    (wholeFieldList false false).run src (openBrace :: (body ++ [closing])) = .ok (c, []) := by
  have hmatching : Token.matchingClose? (openBrace :: (body ++ [closing])) =
      some (body.length + 1) := by
    have hclose := hcloses 0 [closing]
    have hlast : Token.toClose? 0 [closing] = some 0 := by
      rw [Token.toClose?_cons, hclosing]
      rfl
    rw [Nat.zero_add, hlast] at hclose
    rw [Token.matchingClose?, hclose, Option.map_some, Option.map_some, Nat.zero_add]
  simp [wholeFieldList, hopen, hmatching, hrun, run_expect hclosing]

/-- The field list that is the whole input is read in braces. -/
lemma exists_run_wholeFieldList_braced (htokens : Tokens.ofText host text = .ok tokens)
    (hread : Composition.ofText false false host text = .ok c) (hbare : ¬IsBracePair host text) :
    ∃ tokens', Tokens.ofText host (braced "" text) = .ok tokens' ∧
      (Parser.wholeFieldList false false).run ⟨host, braced "" text, tokens'.eof⟩ tokens'.body =
        .ok (c.shift 1, []) ∧ tokens'.eof.kind = .eof := by
  obtain ⟨closing, eof, hclosing, heof, hscan⟩ := opening_empty.ofText_braced htokens
  obtain ⟨hrun, hcloses⟩ := run_fieldList_braced "" false htokens hread hbare hclosing heof
  exact ⟨_, hscan, Parser.run_wholeFieldList_braced rfl hclosing hcloses hrun, heof⟩

/-- A text is a field list when one is read from it up to its end. -/
lemma Composition.ofText_of_run {allowBase allowMut : Bool} {rest : List Token}
    (htokens : Tokens.ofText host text = .ok tokens)
    (hrun : (Parser.wholeFieldList allowBase allowMut).run ⟨host, text, tokens.eof⟩ tokens.body =
      .ok (c, rest))
    (heof : (rest.headD tokens.eof).kind = .eof) :
    ofText allowBase allowMut host text = .ok c := by
  rw [ofText, Parser.onText, htokens]
  dsimp only
  rw [Parser.run_bind, hrun]
  dsimp only
  rw [Parser.run_bind, Parser.run_expectEnd heof]
  rfl

lemma Invocation.ofText_anon {rest : List Token} (htokens : Tokens.ofText host text = .ok tokens)
    (hrun : (Parser.wholeFieldList false false).run ⟨host, text, tokens.eof⟩ tokens.body =
      .ok (c, rest))
    (heof : (rest.headD tokens.eof).kind = .eof) (hempty : c.isEmpty = false) :
    ofText .anon host text = .ok (.anonRecord c) := by
  rw [ofText, Parser.onText, htokens]
  dsimp only
  rw [Parser.invocation, Parser.anonRecord, Parser.run_bind, Parser.run_current]
  dsimp only
  rw [Parser.run_bind, hrun]
  dsimp only
  rw [Parser.run_bind, Parser.run_expectEnd heof, hempty]
  rfl

/-- A captured text that is one name. -/
lemma Parser.run_capture_name {rule : CaptureRule} {src : Source} {t u : Token} {rest : List Token}
    (hname : t.kind = .ident) (hstops : TokenKind.ident ∉ rule.stops)
    (hstop : u.kind ∈ rule.stops) :
    (capture rule).run src (t :: u :: rest) =
      .ok (⟨Text.slice src.text t.start t.stop, t.position⟩, u :: rest) := by
  rw [run_capture, captureFrom]
  simp [hname, hstops, hstop, TokenKind.closer?, TokenKind.isCloser, captureFrom]

/-- A field list in braces behind the name of a type. -/
lemma Invocation.ofText_spread_braced (htokens : Tokens.ofText host text = .ok tokens)
    (hread : Composition.ofText false false host text = .ok c) (hbare : ¬IsBracePair host text) :
    ofText .spread host (braced "X " text) = .ok (.structUpdate ⟨"X", .start⟩ (c.shift 3)) := by
  obtain ⟨closing, eof, hclosing, heof, hscan⟩ := opening_type.ofText_braced htokens
  obtain ⟨hrun, -⟩ := run_fieldList_braced "X " true htokens hread hbare hclosing heof
  have hname : Text.slice (braced "X " text) 0 1 = "X" := by
    rw [Text.slice, toList_braced]
    rfl
  rw [ofText, Parser.onText, hscan]
  dsimp only [List.cons_append, List.nil_append]
  rw [Parser.invocation, Parser.structUpdate, Parser.run_bind,
    Parser.run_capture_name rfl (by simp) (by simp), hname]
  have hend : Parser.expectEnd.run ⟨host, braced "X " text, eof⟩ [] = .ok ((), []) :=
    Parser.run_expectEnd heof
  simp only [Parser.run_bind, Parser.run_expect, hrun, hclosing, hend]
  rfl

lemma Parser.run_expectedRecord {src : Source} {openBrace closing : Token} {body : List Token}
    (hclosing : closing.kind = .closeBrace)
    (hrun : (fieldList { close := .closeBrace }).run src (body ++ [closing]) = .ok (c, [closing]))
    (hempty : c.isEmpty = false) :
    expectedRecord.run src (openBrace :: (body ++ [closing])) = .ok (.record c, []) := by
  simp only [expectedRecord, run_bind, run_advance, List.drop_succ_cons, List.drop_zero, hrun,
    run_expect, hclosing, hempty, Bool.false_eq_true, if_false, run_pure]

/-- A field list in braces behind an actual value. -/
lemma Invocation.ofText_assertion_braced (htokens : Tokens.ofText host text = .ok tokens)
    (hread : Composition.ofText false false host text = .ok c) (hbare : ¬IsBracePair host text)
    (hempty : c.isEmpty = false) :
    ofText .assertFieldsEq host (braced "x, " text) =
      .ok (.assertion { actual := ⟨"x", .start⟩, expected := .record (c.shift 4) }) := by
  obtain ⟨closing, eof, hclosing, heof, hscan⟩ := opening_actual.ofText_braced htokens
  obtain ⟨hrun, -⟩ := run_fieldList_braced "x, " false htokens hread hbare hclosing heof
  have hname : Text.slice (braced "x, " text) 0 1 = "x" := by
    rw [Text.slice, toList_braced]
    rfl
  have hnonempty : (c.shift ("x, ".length + 1)).isEmpty = false := by
    rw [Composition.isEmpty_shift, hempty]
  have hcomma : (Parser.accepts .comma).run ⟨host, braced "x, " text, eof⟩ [] =
      .ok (false, []) := by
    simp [Parser.accepts, Parser.accept?, heof]
  have hend : Parser.expectEnd.run ⟨host, braced "x, " text, eof⟩ [] = .ok ((), []) :=
    Parser.run_expectEnd heof
  rw [ofText, Parser.onText, hscan]
  dsimp only [List.cons_append, List.nil_append]
  rw [Parser.invocation, Parser.assertion, Parser.run_bind,
    Parser.run_capture_name rfl (by simp) (by simp), hname]
  simp only [Parser.run_bind, Parser.run_current, Parser.run_expect, List.headD_cons, if_true,
    Parser.run_expectedRecord hclosing hrun hnonempty, hcomma, Bool.false_eq_true, if_false,
    Parser.run_pure, hend]
  rfl

end

/-- A field list is read alike without braces and in braces, on its own and by every entry point. -/
theorem Composition.ofText_in_braces {text : String} {c : Composition}
    (hread : ofText false false host text = .ok c) (hitems : c.items ≠ [])
    (hbare : ¬IsBracePair host text) :
    ofText false false host (braced "" text) = .ok (c.shift 1) ∧
      Invocation.ofText .anon host text = .ok (.anonRecord c) ∧
      Invocation.ofText .anon host (braced "" text) = .ok (.anonRecord (c.shift 1)) ∧
      Invocation.ofText .spread host (braced "X " text) =
        .ok (.structUpdate ⟨"X", .start⟩ (c.shift 3)) ∧
      Invocation.ofText .assertFieldsEq host (braced "x, " text) =
        .ok (.assertion { actual := ⟨"x", .start⟩, expected := .record (c.shift 4) }) := by
  have hempty : c.isEmpty = false := by
    rw [isEmpty, List.isEmpty_eq_false_iff]
    exact hitems
  obtain ⟨tokens, htokens⟩ : ∃ tokens, Tokens.ofText host text = .ok tokens := by
    rcases htokens : Tokens.ofText host text with e | tokens
    · rw [ofText, Parser.onText, htokens] at hread
      cases hread
    · exact ⟨tokens, rfl⟩
  obtain ⟨rest, hrun, heof⟩ := run_wholeFieldList_of_ofText htokens hread
  obtain ⟨tokens', htokens', hrun', heof'⟩ :=
    exists_run_wholeFieldList_braced htokens hread hbare
  refine ⟨?_, ?_, ?_, ?_, ?_⟩
  · exact ofText_of_run htokens' hrun' heof'
  · exact Invocation.ofText_anon htokens hrun heof hempty
  · exact Invocation.ofText_anon htokens' hrun' heof' (by rw [isEmpty_shift, hempty])
  · exact Invocation.ofText_spread_braced htokens hread hbare
  · exact Invocation.ofText_assertion_braced htokens hread hbare hempty

/-- `a: f(x)`, and on the next line `{&b: c} in {d: 1} # e`. -/
def Composition.twoLines : Composition where
  items := [
    .entry { name := "a", value := some ⟨"f(x)", ⟨1, 4⟩⟩, position := ⟨1, 1⟩ },
    .group {
      entries := [{ name := "c", modifier := .ref, rename := some "b", position := ⟨2, 2⟩ }]
      source := ⟨"\x7bd: 1\x7d", ⟨2, 12⟩⟩
      position := ⟨2, 1⟩ }]

theorem ofText_in_braces_twoLines :
    let python := Host.dialect .python
    let text := "a: f(x),\n\x7b&b: c\x7d in \x7bd: 1\x7d # e"
    let c := Composition.twoLines
    Composition.ofText false false python text = .ok c ∧ c.items ≠ [] ∧ ¬IsBracePair python text ∧
      Composition.ofText false false python (braced "" text) = .ok (c.shift 1) ∧
      Invocation.ofText .anon python text = .ok (.anonRecord c) ∧
      Invocation.ofText .anon python (braced "" text) = .ok (.anonRecord (c.shift 1)) ∧
      Invocation.ofText .spread python (braced "X " text) =
        .ok (.structUpdate ⟨"X", .start⟩ (c.shift 3)) ∧
      Invocation.ofText .assertFieldsEq python (braced "x, " text) =
        .ok (.assertion { actual := ⟨"x", .start⟩, expected := .record (c.shift 4) }) := by
  intro python text c
  have hread : Composition.ofText false false python text = .ok c := by decide +kernel
  have hitems : c.items ≠ [] := by decide
  have hbare : ¬IsBracePair python text := by decide +kernel
  exact ⟨hread, hitems, hbare, Composition.ofText_in_braces hread hitems hbare⟩

end FieldComposition
