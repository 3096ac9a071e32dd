import FieldComposition.Proofs.CoupledFieldList
import FieldComposition.Proofs.InvocationReading

/-!
# Layout does not matter

Two texts of the same tokens are read alike (`Invocation.ofText_layout`): blanks and comments
change neither the structure of an invocation nor the token at which an error is reported.
-/

namespace FieldComposition

namespace Token

lemma toClose?_congr {ts us : List Token} (h : ts.map kind = us.map kind) (depth : Nat) :
    toClose? depth ts = toClose? depth us := by
  induction ts generalizing us depth with
  | nil =>
    obtain rfl : us = [] := by simpa using h.symm
    rfl
  | cons t ts ih =>
    cases us with
    | nil => exact absurd h (by simp)
    | cons u us =>
      obtain ⟨hkind, hrest⟩ := List.cons.inj h
      rw [toClose?_cons, toClose?_cons, hkind]
      cases depth with
      | zero => rw [ih hrest, ih hrest]
      | succ outer =>
        dsimp only
        rw [ih hrest, ih hrest, ih hrest]

lemma matchingClose?_congr {ts us : List Token} (h : ts.map kind = us.map kind) :
    matchingClose? ts = matchingClose? us := by
  cases ts with
  | nil =>
    obtain rfl : us = [] := by simpa using h.symm
    rfl
  | cons t ts =>
    cases us with
    | nil => exact absurd h (by simp)
    | cons u us => rw [matchingClose?, matchingClose?, toClose?_congr (List.cons.inj h).2]

end Token

lemma Layout.SameToken.samePlace {l l' : Layout} {p p' : Position} (h : l.SameToken l' p p') :
    l.SamePlace l' p p' := by
  obtain ⟨n, -, hp, hp'⟩ := h
  exact ⟨n, hp, hp'⟩

lemma Modifier.Alike.isDirect_eq {l l' : Layout} {m m' : Modifier} (h : m.Alike l l' m') :
    m.isDirect = m'.isDirect := by
  have hkind (m : Modifier) : m.isDirect = (m.kind == .direct) := by
    cases m <;> rfl
  rw [hkind, hkind, h.kind]

lemma Composition.Alike.isEmpty_eq {l l' : Layout} {c c' : Composition} (h : c.Alike l l' c') :
    c.isEmpty = c'.isEmpty :=
  isEmpty_eq_of_forall₂ h.items

namespace Parser.Follows

variable {C : Coupling} {n : Nat}

lemma mapM {α β γ δ : Type} {V : α → β → Prop} {W : γ → δ → Prop} {f : α → Parser γ}
    {g : β → Parser δ} (h : ∀ n a b, V a b → Follows C n (f a) (g b) fun _ c d => W c d)
    {as : List α} {bs : List β} (hall : List.Forall₂ V as bs) :
    Follows C n (as.mapM f) (bs.mapM g) fun _ cs ds => List.Forall₂ W cs ds := by
  have hloop (cs : List γ) (ds : List δ) (hread : List.Forall₂ W cs ds) :
      Follows C n (List.mapM.loop f as cs) (List.mapM.loop g bs ds) fun _ cs ds =>
        List.Forall₂ W cs ds := by
    induction hall generalizing n cs ds with
    | nil => exact pure (List.rel_reverse hread)
    | cons hab _ ih => exact bind (h n _ _ hab) fun m c d hcd => ih _ _ (.cons hcd hread)
  exact hloop [] [] .nil

lemma remaining_bind {α β : Type} {f : List Token → Parser α} {g : List Token → Parser β}
    {Q : Nat → α → β → Prop} (h : Follows C n (f (C.leftFrom n)) (g (C.rightFrom n)) Q) :
    Follows C n (remaining >>= f) (remaining >>= g) Q := by
  unfold Follows
  rw [run_bind, run_bind]
  exact h

variable (htail : C.tail = [])

include htail

lemma expectEnd : Follows C n expectEnd expectEnd fun _ _ _ => True :=
  current_bind (ite (by rw [Coupling.kind_eq_of_tail htail]) (fun _ => pure trivial) fun _ =>
    failAt Coupling.samePlace_of_tail)

lemma expectBrace {sought : Sought} :
    Follows C n (Parser.expect .closeBrace sought) (Parser.expect .closeBrace sought)
      fun _ _ _ => True :=
  (expect (by rw [Coupling.kind_eq_of_tail htail]) (by decide)).mono fun _ _ _ _ => trivial

lemma sameLists {rule : ListRule} (hclose : rule.close ≠ .greater) : C.SameLists rule rule :=
  ⟨.whole htail, hclose, id, fun _ => rfl, rfl, fun h => absurd htail h⟩

/-- Whether a field list is in braces is decided by its tokens. -/
lemma wholeFieldList {allowBase allowMut : Bool} :
    Follows C n (wholeFieldList allowBase allowMut) (wholeFieldList allowBase allowMut)
      fun _ c c' => c.Alike C.left C.right c' := by
  have hkinds : (C.leftFrom n).map Token.kind = (C.rightFrom n).map Token.kind := by
    have hlexemes := congrArg (List.map Prod.fst) C.lexemes_eq
    rw [List.map_map, List.map_map] at hlexemes
    rw [Coupling.rightFrom, htail, List.append_nil, List.map_drop, Coupling.leftFrom, List.map_drop]
    exact congrArg (List.drop n) hlexemes
  have hbraced : ((C.leftFrom n).head?.map Token.kind == some .openBrace &&
        Token.matchingClose? (C.leftFrom n) == some ((C.leftFrom n).length - 1)) =
      ((C.rightFrom n).head?.map Token.kind == some .openBrace &&
        Token.matchingClose? (C.rightFrom n) == some ((C.rightFrom n).length - 1)) := by
    have hlength := congrArg List.length hkinds
    rw [List.length_map, List.length_map] at hlength
    rw [← List.head?_map, ← List.head?_map, hkinds, Token.matchingClose?_congr hkinds, hlength]
  have hlists (rule : ListRule) (hclose : rule.close ≠ .greater) (m : Nat) :
      Follows C m (Parser.fieldList rule) (Parser.fieldList rule) fun _ c c' =>
        c.Alike C.left C.right c' :=
    (fieldList (sameLists htail hclose)).mono fun _ _ _ h => h.2
  refine remaining_bind (ite (by rw [hbraced]) (fun h => ?_) fun _ => hlists _ (by simp) n)
  have hbrace : (C.left.tokenAt n).kind = .openBrace := by
    have hhead := (Bool.and_eq_true_iff.mp h).1
    by_cases hn : n < C.left.body.length
    · rw [Coupling.leftFrom_eq_cons hn] at hhead
      simpa using hhead
    · rw [Coupling.leftFrom_of_le (Nat.le_of_not_lt hn)] at hhead
      exact absurd hhead (by decide)
  refine bind (skip_one (Coupling.lt_length (by rw [hbrace]; decide))) ?_
  rintro _ _ _ rfl
  refine bind (hlists _ (by simp) (n + 1)) fun m c c' hc => ?_
  exact bind (expectBrace htail) fun _ _ _ _ => pure hc

lemma structUpdate : Follows C n structUpdate structUpdate fun _ i i' =>
    i.Alike C.left C.right i' := by
  refine bind (capture rfl (.whole htail (by decide))) fun k typePath typePath' hpath => ?_
  refine bind (expect (Coupling.kind_iff (by decide) (by decide)) (by decide)) fun l _ _ _ => ?_
  refine bind (fieldList (sameLists htail (by simp))) fun m c c' hc => ?_
  refine bind (expectBrace htail) fun _ _ _ _ => bind (expectEnd htail) fun _ _ _ _ => ?_
  exact pure ⟨hpath.2, hc.2⟩

lemma anonRecord : Follows C n anonRecord anonRecord fun _ i i' => i.Alike C.left C.right i' := by
  refine current_bind (bind (wholeFieldList htail) fun m c c' hc => ?_)
  refine bind (expectEnd htail) fun _ _ _ _ => ?_
  exact ite (by rw [hc.isEmpty_eq]) (fun _ => failAt_bind Coupling.samePlace_of_tail) fun _ =>
    pure hc

omit htail in
lemma bareName {i i' : Item} (h : i.Alike C.left C.right i') :
    Follows C n (bareName i) (bareName i') fun _ e e' => e.Alike C.left C.right e' := by
  cases i with
  | entry e =>
    cases i' with
    | entry e' =>
      exact ite (by rw [isSome_eq_of_rel h.value])
        (fun _ => failAt_bind fun _ => h.position.samePlace) fun _ => pure h
    | group g' => exact h.elim
  | group g =>
    cases i' with
    | entry e' => exact h.elim
    | group g' => exact failAt fun _ => h.position.samePlace

lemma rebindingEntries : Follows C n rebindingEntries rebindingEntries fun _ entries entries' =>
    List.Forall₂ (Entry.Alike C.left C.right) entries entries' := by
  refine current_bind (bind (wholeFieldList htail) fun m c c' hc => ?_)
  refine bind (expectEnd htail) fun _ _ _ _ => ?_
  exact ite (by rw [hc.isEmpty_eq]) (fun _ => failAt_bind Coupling.samePlace_of_tail) fun _ =>
    mapM (fun _ _ _ h => bareName h) hc.items

omit htail in
lemma alike_rebinding {entries entries' : List Entry}
    (h : List.Forall₂ (Entry.Alike C.left C.right) entries entries') :
    (Invocation.rebinding { items := entries.map .entry }).Alike C.left C.right
      (.rebinding { items := entries'.map .entry }) := by
  refine ⟨?_, .none⟩
  rw [List.forall₂_map_left_iff, List.forall₂_map_right_iff]
  exact h

lemma rebinding : Follows C n rebinding rebinding fun _ i i' => i.Alike C.left C.right i' :=
  bind (rebindingEntries htail) fun _ _ _ h => pure (alike_rebinding h)

omit htail in
lemma cloneEntry {e e' : Entry} (h : e.Alike C.left C.right e') :
    Follows C n (cloneEntry e) (cloneEntry e') fun _ e e' => e.Alike C.left C.right e' :=
  ite (by rw [h.modifier.isDirect_eq])
    (fun _ => pure { h with modifier := ⟨rfl, .none⟩ }) fun _ =>
      failAt_bind fun _ => h.position.samePlace

lemma cloneRebinding : Follows C n cloneRebinding cloneRebinding fun _ i i' =>
    i.Alike C.left C.right i' := by
  refine bind (rebindingEntries htail) fun _ entries entries' h => ?_
  exact bind (mapM (fun _ _ _ h => cloneEntry h) h) fun _ _ _ h => pure (alike_rebinding h)

/-- Tokens of the same name at the same place. -/
def SameName (C : Coupling) (t u : Token) : Prop :=
  t.value = u.value ∧ C.left.SamePlace C.right t.position u.position

omit htail in
lemma expectName {sought : Sought} :
    Reads C n (expectName sought) (expectName sought) (SameName C) := by
  have hread (hn : n < C.left.body.length) : SameName C (C.left.tokenAt n) (C.rightAt n) :=
    ⟨Coupling.value_eq hn, (Coupling.sameToken hn).samePlace⟩
  refine current_bind (bind isName ?_)
  rintro _ b _ ⟨rfl, rfl, hname⟩
  refine ite Iff.rfl (fun hb => ?_) fun _ => ?_
  · refine (advance (hname hb).1).mono ?_
    rintro _ _ _ ⟨rfl, rfl, rfl⟩
    exact ⟨(hname hb).2, hread (hname hb).1⟩
  · refine (expect (Coupling.kind_iff (by decide) (by decide)) (by decide)).mono ?_
    rintro _ _ _ ⟨rfl, rfl, rfl, hkind⟩
    have hn := Coupling.lt_length (by rw [hkind]; decide)
    exact ⟨.step hn (by rw [hkind]; rfl) (by rw [hkind]; rfl), hread hn⟩

omit htail in
lemma find?_sameName {ts us : List Token} (h : List.Forall₂ (SameName C) ts us) (name : String) :
    Option.Rel (SameName C) (ts.find? (·.value == name)) (us.find? (·.value == name)) := by
  induction h with
  | nil => exact .none
  | cons htu _ ih =>
    rw [List.find?_cons, List.find?_cons, htu.1]
    split
    · exact .some htu
    · exact ih

omit htail in
/-- A name that occurs twice does so on both sides. -/
lemma nextFieldName {names names' : List Token} (h : List.Forall₂ (SameName C) names names') :
    Reads C n (nextFieldName names) (nextFieldName names') (List.Forall₂ (SameName C)) := by
  refine bind expectName fun m t u htu => ?_
  have hfind := find?_sameName h t.value
  rw [← htu.2.1]
  revert hfind
  generalize names.find? (·.value == t.value) = first?
  generalize names'.find? (·.value == t.value) = first?'
  rintro (hfirst | -)
  · exact fun _ => ⟨_, rfl, hfirst.2, htu.2.2⟩
  · exact pure ⟨htu.1, forall₂_snoc h htu.2⟩

lemma fieldNames : Follows C n fieldNames fieldNames fun _ names names' => names = names' := by
  refine bind (expect (Coupling.kind_iff (by decide) (by decide)) (by decide)) ?_
  rintro _ _ _ ⟨rfl, rfl, rfl, -⟩
  refine bind (separated (.whole htail) ⟨rfl, rfl⟩ (fun _ _ _ h => nextFieldName h)
    (fun h => absurd htail h) List.Forall₂.nil) ?_
  rintro m names names' ⟨⟨-, hnames⟩, hclose⟩
  have hclose : (C.left.tokenAt m).kind = .closeBracket := by simpa using hclose
  refine bind (skip_one (Coupling.lt_length (by rw [hclose]; decide))) fun _ _ _ _ => ?_
  refine ite (by rw [isEmpty_eq_of_forall₂ hnames])
    (fun _ => failAt_bind Coupling.samePlace_of_tail) fun _ => pure ?_
  have hvalues : List.Forall₂ (· = ·) (names.map (·.value)) (names'.map (·.value)) := by
    rw [List.forall₂_map_left_iff, List.forall₂_map_right_iff]
    exact hnames.imp fun _ _ h => h.1
  rwa [List.forall₂_eq_eq_eq] at hvalues

lemma expectedRecord (hbrace : (C.left.tokenAt n).kind = .openBrace) :
    Follows C n expectedRecord expectedRecord fun _ expected expected' =>
      expected.Alike C.left C.right expected' := by
  refine bind (advance (Coupling.lt_length (by rw [hbrace]; decide))) ?_
  rintro _ _ _ ⟨rfl, rfl, rfl⟩
  refine bind (fieldList (sameLists htail (by simp))) fun m c c' hc => ?_
  refine bind (expectBrace htail) fun _ _ _ _ => ?_
  exact ite (by rw [hc.2.isEmpty_eq]) (fun _ => failAt_bind Coupling.samePlace_of_tail) fun _ =>
    pure hc.2

lemma expectedValue : Follows C n expectedValue expectedValue fun _ expected expected' =>
    expected.Alike C.left C.right expected' := by
  refine bind (capture rfl (.whole htail (by decide))) fun k value value' hvalue => ?_
  refine bind (expect (Coupling.kind_iff (by decide) (by decide)) (by decide)) fun l _ _ _ => ?_
  exact bind (fieldNames htail) fun m names names' hnames => pure ⟨hvalue.2, hnames⟩

lemma messageArgument {args args' : List Expression}
    (h : List.Forall₂ (Expression.Alike C.left C.right) args args') :
    Reads C n (messageArgument args) (messageArgument args')
      (List.Forall₂ (Expression.Alike C.left C.right)) :=
  bind (capture rfl (.whole htail (by decide))) fun _ _ _ harg =>
    pure ⟨harg.1, forall₂_snoc h harg.2⟩

lemma assertion : Follows C n assertion assertion fun _ i i' => i.Alike C.left C.right i' := by
  refine bind (capture rfl (.whole htail (by decide))) fun k actual actual' hactual => ?_
  refine bind (expect (Coupling.kind_iff (by decide) (by decide)) (by decide)) fun l _ _ _ => ?_
  refine current_bind (ite (Coupling.kind_iff (by decide) (by decide)) (fun hbrace => ?_)
    fun _ => ?_)
  case' refine_1 =>
    refine bind (expectedRecord htail hbrace) fun _ expected expected' hexpected => ?_
  case' refine_2 => refine bind (expectedValue htail) fun _ expected expected' hexpected => ?_
  all_goals
    refine bind (accepts (by decide) rfl rfl) ?_
    rintro j b _ ⟨-, rfl⟩
    refine ite Iff.rfl (fun _ => ?_) fun _ => ?_
    · refine bind (separated (.whole htail) ⟨rfl, rfl⟩ (fun _ _ _ h => messageArgument htail h)
        (fun h => absurd htail h) List.Forall₂.nil) fun _ args args' hargs => ?_
      exact bind (expectEnd htail) fun _ _ _ _ => pure ⟨hactual.2, hexpected, hargs.1.2⟩
    · have hnone : Follows C j (Pure.pure []) (Pure.pure []) fun _ args args' =>
          List.Forall₂ (Expression.Alike C.left C.right) args args' := pure .nil
      refine bind hnone fun _ args args' hargs => ?_
      exact bind (expectEnd htail) fun _ _ _ _ => pure ⟨hactual.2, hexpected, hargs⟩

/-- Every entry point but the one of holders reads in step. -/
theorem invocation {entryPoint : EntryPoint} (hholder : entryPoint ≠ .fnStruct) :
    Follows C n (invocation entryPoint) (invocation entryPoint) fun _ i i' =>
      i.Alike C.left C.right i' := by
  cases entryPoint with
  | spread => exact structUpdate htail
  | anon => exact anonRecord htail
  | slet => exact rebinding htail
  | clone => exact cloneRebinding htail
  | fnStruct => exact absurd rfl hholder
  | assertFieldsEq => exact assertion htail

end Parser.Follows

def Tokens.layout (tokens : Tokens) (host : Host) (text : String) : Layout :=
  ⟨⟨host, text, tokens.eof⟩, tokens.body⟩

/-- Two texts of the same tokens, in full. -/
def Tokens.coupling {host : Host} {text text' : String} {tokens tokens' : Tokens}
    (htokens : ofText host text = .ok tokens) (htokens' : ofText host text' = .ok tokens')
    (hsame : tokens.toList.map Token.lexeme = tokens'.toList.map Token.lexeme) : Coupling where
  left := tokens.layout host text
  right := tokens'.layout host text'
  tail := []
  host_eq := rfl
  lexemes_eq := by
    rw [toList, toList, List.map_append, List.map_append] at hsame
    exact List.append_inj_left' hsame rfl
  kind_ne_eof := kind_ne_eof_of_ofText htokens
  left_eof := kind_eof_of_ofText htokens
  right_eof := kind_eof_of_ofText htokens'
  closeBrace_of_tail := by simp

/-- Two texts of the same tokens are both read, into invocations that are alike, or they are both
refused, with errors of the same class at the same token. -/
theorem Invocation.ofText_layout {entryPoint : EntryPoint} (hholder : entryPoint ≠ .fnStruct)
    {host : Host} {text text' : String} {tokens tokens' : Tokens}
    (htokens : Tokens.ofText host text = .ok tokens)
    (htokens' : Tokens.ofText host text' = .ok tokens')
    (hsame : tokens.toList.map Token.lexeme = tokens'.toList.map Token.lexeme) :
    match Invocation.ofText entryPoint host text, Invocation.ofText entryPoint host text' with
    | .ok i, .ok i' => i.Alike (tokens.layout host text) (tokens'.layout host text') i'
    | .error e, .error e' => (tokens.layout host text).SameError (tokens'.layout host text') e e'
    | _, _ => False := by
  let C := Tokens.coupling htokens htokens' hsame
  have hfollows := Parser.Follows.invocation (C := C) (n := 0) rfl hholder
  have hright : C.rightFrom 0 = tokens'.body := List.append_nil _
  rw [Parser.Follows, hright] at hfollows
  rw [Invocation.ofText, Parser.onText, Invocation.ofText, Parser.onText, htokens, htokens']
  dsimp only
  change C.Agree _ ((Parser.invocation entryPoint).run ⟨host, text, tokens.eof⟩ tokens.body)
    ((Parser.invocation entryPoint).run ⟨host, text', tokens'.eof⟩ tokens'.body) at hfollows
  revert hfollows
  generalize (Parser.invocation entryPoint).run ⟨host, text, tokens.eof⟩ tokens.body = r
  generalize (Parser.invocation entryPoint).run ⟨host, text', tokens'.eof⟩ tokens'.body = r'
  intro hfollows
  rcases r with e | ⟨i, rest⟩
  · obtain ⟨e', rfl, herror⟩ := hfollows rfl
    exact herror
  rcases r' with e' | ⟨i', rest'⟩
  · exact hfollows.elim
  · obtain ⟨m, -, -, halike⟩ := hfollows
    exact halike

/-- A field and its value, written on one line. -/
def Tokens.oneLine : Tokens where
  body := [⟨.ident, "a", 0, 1, ⟨1, 1⟩⟩, ⟨.colon, ":", 1, 2, ⟨1, 2⟩⟩, ⟨.ident, "b", 2, 3, ⟨1, 3⟩⟩]
  eof := ⟨.eof, "", 3, 3, ⟨1, 4⟩⟩

/-- The same on two lines, of which the first one ends in a comment. -/
def Tokens.twoLines : Tokens where
  body := [⟨.ident, "a", 0, 1, ⟨1, 1⟩⟩, ⟨.colon, ":", 6, 7, ⟨2, 1⟩⟩, ⟨.ident, "b", 8, 9, ⟨2, 3⟩⟩]
  eof := ⟨.eof, "", 9, 9, ⟨2, 4⟩⟩

theorem ofText_layout_twoLines :
    let python := Host.dialect .python
    EntryPoint.anon ≠ .fnStruct ∧ Tokens.ofText python "a:b" = .ok .oneLine ∧
      Tokens.ofText python "a # c\n: b" = .ok .twoLines ∧
      Tokens.oneLine.toList.map Token.lexeme = Tokens.twoLines.toList.map Token.lexeme ∧
      match Invocation.ofText .anon python "a:b", Invocation.ofText .anon python "a # c\n: b" with
      | .ok i, .ok i' =>
        i.Alike (Tokens.oneLine.layout python "a:b") (Tokens.twoLines.layout python "a # c\n: b") i'
      | .error e, .error e' =>
        (Tokens.oneLine.layout python "a:b").SameError
          (Tokens.twoLines.layout python "a # c\n: b") e e'
      | _, _ => False := by
  have htokens : Tokens.ofText (.dialect .python) "a:b" = .ok .oneLine := by decide +kernel
  have htokens' : Tokens.ofText (.dialect .python) "a # c\n: b" = .ok .twoLines := by decide +kernel
  exact ⟨by decide, htokens, htokens', by decide,
    Invocation.ofText_layout (by decide) htokens htokens' (by decide)⟩

end FieldComposition
