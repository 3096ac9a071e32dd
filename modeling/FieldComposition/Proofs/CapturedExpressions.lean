import FieldComposition.Proofs.SeparableInvocation

/-!
# Captured expressions

In every host language an expression of a record or of an assertion is the text of consecutive
tokens, and by itself it is read as the same tokens (`Invocation.isCaptured_of_ofText`).
-/

namespace FieldComposition

/-- The expression is the text of some consecutive tokens, which are also its tokens by itself. -/
def Expression.IsCaptured (host : Host) (text : String) (tokens : Tokens) (e : Expression) :
    Prop :=
  ∃ run own, run <:+: tokens.body ∧ e.text = Token.textOf text run ∧
    Tokens.ofText host e.text = .ok own ∧ own.body.map Token.lexeme = run.map Token.lexeme

/-- A captured expression is read as by itself, from its first token on. -/
lemma Expression.IsCaptured.exists_lexes {host : Host} {text : String} {tokens : Tokens}
    {e : Expression} (h : e.IsCaptured host text tokens)
    (htokens : Tokens.ofText host text = .ok tokens) :
    ∃ parts, Lexes host [] e.text.toList parts ∧ ∀ s ∈ parts.head?, s.kind?.isSome := by
  obtain ⟨run, -, ⟨before, behind, hbody⟩, he, -, -⟩ := h
  by_cases hne : run = []
  · subst hne
    exact ⟨[], he ▸ .nil, nofun⟩
  rw [List.append_assoc] at hbody
  obtain ⟨more, parts, hlexes, hsolid, -, htext⟩ :=
    exists_stretches_of_ofText htokens hbody.symm hne
  obtain ⟨first, last, hfirst, hlast⟩ := exists_ends hne
  rw [he, Token.textOf_eq hfirst hlast, htext first hfirst last hlast, String.toList_ofList]
  exact ⟨parts, hlexes.before_delimiter hsolid.ends nofun, hsolid.starts⟩

namespace Parser.Leaves

variable {host : Host} {text : String} {tokens : Tokens}

section

variable (htokens : Tokens.ofText host text = .ok tokens)

include htokens

lemma capture_isCaptured {rule : CaptureRule} (hgreater : .greater ∉ rule.stops) :
    Leaves host text tokens (capture rule) (·.IsCaptured host text tokens) := by
  intro ts hts e rest hrun
  obtain ⟨run, rfl, hne, he, -, -⟩ := exists_run_of_capture hgreater hrun
  obtain ⟨before, hbody⟩ := hts
  obtain ⟨own, hown, hlexemes⟩ := Tokens.exists_ofText_textOf htokens hbody.symm hne
  refine ⟨⟨run, own, ⟨before, rest, ?_⟩, he, he ▸ hown, hlexemes⟩, before ++ run, ?_⟩
  · rw [← hbody, List.append_assoc]
  · rw [← hbody, List.append_assoc]

lemma pathSegments {last : Token} :
    Leaves host text tokens (pathSegments last) fun _ => True := by
  intro ts hts t rest hrun
  obtain ⟨front, rfl, -, -⟩ :=
    exists_run_of_pathSegments (Tokens.kind_eof_of_ofText htokens) hrun
  exact ⟨trivial, (List.suffix_append front rest).trans hts⟩

lemma customPath_any : Leaves host text tokens Parser.customPath fun _ => True := by
  refine advance.bind fun openBracket _ => current.bind fun first _ => ?_
  refine ite (fun _ => failAt_bind) fun _ => accept?.bind fun _ _ => expect.bind fun name _ => ?_
  refine (pathSegments htokens).bind fun last _ => current.bind fun t _ => ?_
  refine ite (fun _ => ?_) fun _ => failAt_bind
  exact skip.bind fun _ _ => of_run_eq fun _ => rfl

lemma modifier_any : Leaves host text tokens Parser.modifier fun _ => True := by
  refine current.bind fun t _ => ?_
  split
  · exact skip.bind fun _ _ => accepts.bind fun _ _ => pure trivial
  · exact skip.bind fun _ _ => accepts.bind fun _ _ => pure trivial
  · exact skip.bind fun _ _ => pure trivial
  · refine (customPath_any htokens).bind fun path _ => accepts.bind fun _ _ => ?_
    exact ite (fun _ => accepts.bind fun _ _ => pure trivial) fun _ => pure trivial
  · exact ite (fun _ => failAt) fun _ => pure trivial

omit htokens in
lemma nameAfter_any {m : Modifier} : Leaves host text tokens (Parser.nameAfter m) fun _ => True :=
  current.bind fun _ _ => isName.bind fun _ _ => ite (fun _ => advance) fun _ =>
    ite (fun _ => failAt) fun _ => failAt

omit htokens in
lemma sourceField_any {stops : List TokenKind} :
    Leaves host text tokens (Parser.sourceField stops) fun _ => True :=
  current.bind fun _ _ => following.bind fun _ _ => isName.bind fun _ _ =>
    ite (fun _ => advance) fun _ => failAt

lemma entry_isCaptured {stops : List TokenKind} {inGroup allowMut : Bool}
    (hgreater : .greater ∉ stops) :
    Leaves host text tokens (Parser.entry stops inGroup allowMut) fun e =>
      ∀ value ∈ e.value, value.IsCaptured host text tokens := by
  refine current.bind fun first _ => mutMark.bind fun mark _ => ?_
  rcases mark with _ | t
  case' some => refine ite (fun _ => ?_) fun _ => failAt_bind
  all_goals
    refine (modifier_any htokens).bind fun m _ => nameAfter_any.bind fun name _ => ?_
    refine accepts.bind fun _ _ => ite (fun _ => ?_) fun _ => pure (by simp)
    refine ite (fun _ => sourceField_any.bind fun _ _ => pure (by simp)) fun _ => ?_
    exact (capture_isCaptured htokens hgreater).bind fun value hvalue =>
      pure (by simpa using hvalue)

lemma groupEntry_any {openBrace : Token} {allowMut : Bool} {entries : List Entry} :
    Leaves host text tokens (Parser.groupEntry openBrace allowMut entries) fun _ => True := by
  refine current.bind fun t _ => ite (fun _ => failAt_bind) fun _ => ?_
  refine ite (fun _ => failAt_bind) fun _ => ?_
  refine (entry_isCaptured htokens (by decide)).bind fun e _ => current.bind fun next _ => ?_
  exact ite (fun _ => failAt_bind) fun _ => pure trivial

lemma group_isCaptured {rule : ListRule} (hclose : rule.close ≠ .greater) :
    Leaves host text tokens (Parser.group rule) (·.source.IsCaptured host text tokens) := by
  refine advance.bind fun openBrace _ => ?_
  refine (separated (P := fun _ => True) (fun _ _ => groupEntry_any htokens) trivial).bind
    fun entries _ => skip.bind fun _ _ => ite (fun _ => failAt_bind) fun _ => ?_
  refine current.bind fun t _ => ite (fun _ => skip.bind fun _ _ => ?_) fun _ => failAt_bind
  refine (capture_isCaptured htokens ?_).bind fun source hsource => pure hsource
  simpa using hclose.symm

lemma item_isCaptured {rule : ListRule} (hclose : rule.close ≠ .greater) {items : List Item}
    (hitems : ∀ e ∈ items.flatMap Item.expressions, e.IsCaptured host text tokens) :
    Leaves host text tokens (Parser.item rule items) fun items =>
      ∀ e ∈ items.flatMap Item.expressions, e.IsCaptured host text tokens := by
  refine current.bind fun t _ => ite (fun _ => failAt) fun _ => ite (fun _ => ?_) fun _ => ?_
  · refine (group_isCaptured htokens hclose).bind fun g hg => pure fun e he => ?_
    rw [List.flatMap_append, List.mem_append] at he
    rcases he with he | he
    · exact hitems e he
    · obtain rfl : e = g.source := by simpa [Item.expressions] using he
      exact hg
  · refine ite (fun _ => failAt) fun _ => ?_
    refine (entry_isCaptured htokens (by simpa using hclose.symm)).bind fun entry hentry => ?_
    refine pure fun e he => ?_
    rw [List.flatMap_append, List.mem_append] at he
    rcases he with he | he
    · exact hitems e he
    · exact hentry e (by simpa [Item.expressions] using he)

lemma base_isCaptured {rule : ListRule} (hclose : rule.close ≠ .greater) :
    Leaves host text tokens (Parser.base rule) fun base =>
      ∀ e ∈ base, e.IsCaptured host text tokens := by
  refine current.bind fun t _ => ite (fun _ => ?_) fun _ => pure (by simp)
  refine ite (fun _ => skip.bind fun _ _ => ?_) fun _ => failAt_bind
  refine (capture_isCaptured htokens (by simpa using hclose.symm)).bind fun base hbase =>
    current.bind fun next _ => ite (fun _ => failAt_bind) fun _ => pure ?_
  simpa using hbase

lemma fieldList_isCaptured {rule : ListRule} (hclose : rule.close ≠ .greater) :
    Leaves host text tokens (Parser.fieldList rule) fun c =>
      ∀ e ∈ c.expressions, e.IsCaptured host text tokens := by
  refine (separated (fun _ h => item_isCaptured htokens hclose h) (by simp)).bind
    fun items hitems => (base_isCaptured htokens hclose).bind fun base hbase => pure ?_
  intro e he
  rcases List.mem_append.mp he with he | he
  · exact hitems e he
  · exact hbase e (by simpa using he)

omit htokens in
lemma fieldNames_any : Leaves host text tokens Parser.fieldNames fun _ => True := by
  have hname {names : List Token} :
      Leaves host text tokens (nextFieldName names) fun _ => True := by
    have hexpect : Leaves host text tokens (expectName .fieldName) fun _ => True :=
      current.bind fun _ _ => isName.bind fun _ _ => ite (fun _ => advance) fun _ => expect
    refine hexpect.bind fun t _ => ?_
    split
    · exact fun _ _ _ _ hrun => by cases hrun
    · exact pure trivial
  refine expect.bind fun openBracket _ => ?_
  refine (separated (P := fun _ => True) (fun _ _ => hname) trivial).bind fun names _ => ?_
  exact skip.bind fun _ _ => ite (fun _ => failAt_bind) fun _ => pure trivial

lemma expectedRecord_isCaptured :
    Leaves host text tokens Parser.expectedRecord fun expected =>
      ∀ e ∈ expected.expressions, e.IsCaptured host text tokens := by
  refine advance.bind fun openBrace _ => (fieldList_isCaptured htokens (by decide)).bind
    fun c hc => expect.bind fun _ _ => ite (fun _ => failAt_bind) fun _ => pure hc

lemma expectedValue_isCaptured :
    Leaves host text tokens Parser.expectedValue fun expected =>
      ∀ e ∈ expected.expressions, e.IsCaptured host text tokens := by
  refine (capture_isCaptured htokens (by decide)).bind fun value hvalue => expect.bind fun _ _ => ?_
  exact fieldNames_any.bind fun names _ => pure (by simpa [Expected.expressions] using hvalue)

lemma assertion_isCaptured :
    Leaves host text tokens Parser.assertion fun i =>
      ∀ e ∈ i.expressions, e.IsCaptured host text tokens := by
  refine (capture_isCaptured htokens (by decide)).bind fun actual hactual =>
    expect.bind fun _ _ => current.bind fun t _ => ?_
  have hall (expected : Expected)
      (hexpected : ∀ e ∈ expected.expressions, e.IsCaptured host text tokens)
      (args : List Expression) (hargs : ∀ e ∈ args, e.IsCaptured host text tokens) :
      ∀ e ∈ (Invocation.assertion ⟨actual, expected, args⟩).expressions,
        e.IsCaptured host text tokens := by
    intro e he
    rcases List.mem_cons.mp he with rfl | he
    · exact hactual
    · exact (List.mem_append.mp he).elim (hexpected e) (hargs e)
  have hargument (args : List Expression) (hargs : ∀ e ∈ args, e.IsCaptured host text tokens) :
      Leaves host text tokens (messageArgument args) fun args =>
        ∀ e ∈ args, e.IsCaptured host text tokens :=
    (capture_isCaptured htokens (by decide)).bind fun arg harg =>
      pure (Returns.forall_mem_snoc hargs harg)
  refine ite (fun _ => ?_) fun _ => ?_
  case' refine_1 => refine (expectedRecord_isCaptured htokens).bind fun expected hexpected => ?_
  case' refine_2 => refine (expectedValue_isCaptured htokens).bind fun expected hexpected => ?_
  all_goals
    refine accepts.bind fun hasComma _ => ite (fun _ => ?_) fun _ => ?_
    · refine (separated hargument (by simp)).bind fun args hargs => ?_
      exact expectEnd.bind fun _ _ => pure (hall expected hexpected args hargs)
    · refine (pure (P := (· = [])) rfl).bind fun args hargs => ?_
      exact expectEnd.bind fun _ _ => pure (hall expected hexpected args (by simp [hargs]))

lemma wholeFieldList_isCaptured {allowBase allowMut : Bool} :
    Leaves host text tokens (Parser.wholeFieldList allowBase allowMut) fun c =>
      ∀ e ∈ c.expressions, e.IsCaptured host text tokens := by
  refine remaining.bind fun ts _ => ite (fun _ => skip.bind fun _ _ => ?_) fun _ =>
    fieldList_isCaptured htokens (by simp)
  exact (fieldList_isCaptured htokens (by simp)).bind fun c hc => expect.bind fun _ _ => pure hc

lemma structUpdate_isCaptured :
    Leaves host text tokens Parser.structUpdate fun i =>
      ∀ e ∈ i.expressions, e.IsCaptured host text tokens := by
  refine (capture_isCaptured htokens (by decide)).bind fun typePath _ => expect.bind fun _ _ => ?_
  refine (fieldList_isCaptured htokens (by decide)).bind fun c hc => expect.bind fun _ _ => ?_
  exact expectEnd.bind fun _ _ => pure hc

lemma anonRecord_isCaptured :
    Leaves host text tokens Parser.anonRecord fun i =>
      ∀ e ∈ i.expressions, e.IsCaptured host text tokens := by
  refine current.bind fun first _ => (wholeFieldList_isCaptured htokens).bind fun c hc => ?_
  exact expectEnd.bind fun _ _ => ite (fun _ => failAt_bind) fun _ => pure hc

end

end Parser.Leaves

/-- The entry points that carry expressions of the caller into a record or an assertion. -/
def EntryPoint.carriesExpressions : EntryPoint → Bool
  | spread | anon | assertFieldsEq => true
  | slet | clone | fnStruct => false

/-- The expressions of a record or of an assertion are captured from the tokens of its text. -/
lemma Invocation.isCaptured_of_ofText {entryPoint : EntryPoint} {host : Host} {text : String}
    {i : Invocation} (hentry : entryPoint.carriesExpressions)
    (h : Invocation.ofText entryPoint host text = .ok i) :
    ∃ tokens, Tokens.ofText host text = .ok tokens ∧
      ∀ e ∈ i.expressions, e.IsCaptured host text tokens := by
  refine Parser.Leaves.exists_of_onText (P := fun tokens i =>
    ∀ e ∈ i.expressions, e.IsCaptured host text tokens) (fun tokens htokens => ?_) h
  cases entryPoint with
  | spread => exact .structUpdate_isCaptured htokens
  | anon => exact .anonRecord_isCaptured htokens
  | assertFieldsEq => exact .assertion_isCaptured htokens
  | slet | clone | fnStruct => cases hentry

/-- The expressions of an assertion are captured from the tokens of its text. -/
lemma Assertion.isCaptured_of_ofText {host : Host} {text : String} {i : Invocation}
    (h : Invocation.ofText .assertFieldsEq host text = .ok i) :
    ∃ tokens, Tokens.ofText host text = .ok tokens ∧
      ∀ e ∈ i.expressions, e.IsCaptured host text tokens :=
  Invocation.isCaptured_of_ofText rfl h

end FieldComposition
