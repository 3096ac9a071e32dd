import FieldComposition.Proofs.TokenStream
import FieldComposition.Parser.Invocation

/-!
# Hosts with more names

Some hosts may use the words of the grammar as names. Such a host reads the tokens that another one
accepts, and it reads them in the same way: where a word could stand for a name instead, the other
host fails (`Parser.Carries.invocation`). So the python dialect accepts what the rust dialect
accepts, when both split the text into the same tokens (`Invocation.ofText_python_of_rust`).
-/

namespace FieldComposition

namespace Parser

variable {α β σ : Type} {src : Source} {host : Host}

/-- What a parser reads from tokens for a source, it reads from them in another host as well. -/
def CarriesOn (src : Source) (host : Host) (tokens : List Token) (p : Parser α) : Prop :=
  ∀ a rest, p.run src tokens = .ok (a, rest) → p.run { src with host } tokens = .ok (a, rest)

def Carries (src : Source) (host : Host) (p : Parser α) : Prop :=
  ∀ tokens, CarriesOn src host tokens p

lemma CarriesOn.bind {tokens : List Token} {p : Parser α} {f : α → Parser β}
    (hp : CarriesOn src host tokens p) (hf : ∀ a, Carries src host (f a)) :
    CarriesOn src host tokens (p >>= f) := by
  intro b rest hrun
  rw [run_bind] at hrun ⊢
  cases hresult : p.run src tokens with
  | error error =>
    rw [hresult] at hrun
    exact absurd hrun (by simp)
  | ok result =>
    rw [hresult] at hrun
    rw [hp _ _ hresult]
    exact hf result.1 result.2 b rest hrun

/-- A leading word is no mark where it is a name that ends the entry. -/
lemma run_mutMark (stops : List TokenKind) (src : Source) (tokens : List Token) :
    (mutMark stops).run src tokens =
      if (tokens.headD src.eof).kind = .wordMut &&
          ((tokens.headD src.eof).kind == .ident ||
            (src.host.hasSoftKeywords && (tokens.headD src.eof).kind.isSoftKeyword)) &&
          (TokenKind.colon :: .eof :: stops).contains (tokens.tail.headD src.eof).kind then
        .ok (none, tokens)
      else (accept? .wordMut).run src tokens := by
  simp only [mutMark, run_bind, run_current, run_following, run_isName]
  split <;> rfl

lemma CarriesOn.current_bind {tokens : List Token} {f : Token → Parser β}
    (hf : CarriesOn src host tokens (f (tokens.headD src.eof))) :
    CarriesOn src host tokens (current >>= f) := by
  intro b rest hrun
  rw [run_bind, run_current] at hrun ⊢
  exact hf b rest hrun

namespace Carries

variable {p q : Parser α}

lemma of_run_eq (h : ∀ tokens, p.run { src with host } tokens = p.run src tokens) :
    Carries src host p :=
  fun tokens _ _ hrun => (h tokens).trans hrun

lemma pure {a : α} : Carries src host (pure a) :=
  of_run_eq fun _ => rfl

lemma bind {f : α → Parser β} (hp : Carries src host p) (hf : ∀ a, Carries src host (f a)) :
    Carries src host (p >>= f) :=
  fun tokens => (hp tokens).bind hf

lemma ite {c : Prop} [Decidable c] (hp : Carries src host p) (hq : Carries src host q) :
    Carries src host (if c then p else q) := by
  split
  · exact hp
  · exact hq

lemma failAt {fault : SyntaxFault} {position : Position} :
    Carries src host (failAt fault position : Parser α) :=
  of_run_eq fun _ => rfl

lemma failAt_bind {fault : SyntaxFault} {position : Position} {f : α → Parser β} :
    Carries src host (Parser.failAt fault position >>= f) :=
  of_run_eq fun _ => rfl

lemma current : Carries src host current :=
  of_run_eq fun _ => rfl

lemma remaining : Carries src host remaining :=
  of_run_eq fun _ => rfl

lemma skip {n : Nat} : Carries src host (skip n) :=
  of_run_eq fun _ => rfl

lemma textBetween {first last : Token} : Carries src host (textBetween first last) :=
  of_run_eq fun _ => rfl

lemma advance : Carries src host advance :=
  current.bind fun _ => skip.bind fun _ => pure

lemma expect {kind : TokenKind} {sought : Sought} : Carries src host (expect kind sought) :=
  current.bind fun _ => ite advance failAt

lemma accept? {kind : TokenKind} : Carries src host (accept? kind) :=
  current.bind fun _ => ite (skip.bind fun _ => pure) pure

lemma accepts {kind : TokenKind} : Carries src host (accepts kind) :=
  accept?.bind fun _ => pure

lemma expectEnd : Carries src host expectEnd :=
  current.bind fun _ => ite pure failAt

lemma capture {rule : CaptureRule} : Carries src host (capture rule) :=
  of_run_eq fun tokens => by rw [run_capture, run_capture]

lemma bracketed {first : Token} {fault : SyntaxFault} :
    Carries src host (bracketed first fault) := by
  refine remaining.bind fun tokens => ?_
  cases Token.matchingClose? tokens with
  | none => exact current.bind fun _ => failAt
  | some index => exact skip.bind fun _ => advance.bind fun _ => textBetween

lemma mapM {f : α → Parser β} (h : ∀ a, Carries src host (f a)) (as : List α) :
    Carries src host (as.mapM f) := by
  have hloop (as : List α) (bs : List β) : Carries src host (List.mapM.loop f as bs) := by
    induction as generalizing bs with
    | nil => exact pure
    | cons a as ih => exact (h a).bind fun b => ih (b :: bs)
  exact hloop as []

/-- Repeated items are read in the same way when each of them is, by induction on the tokens that
are left. -/
lemma separated {close : TokenKind} {stops : TokenKind → Bool} {sought : Sought}
    {item : σ → Parser σ} (hitem : ∀ s, Carries src host (item s)) {s : σ} :
    Carries src host (separated close stops sought item s) := by
  intro tokens
  induction hn : tokens.length using Nat.strong_induction_on generalizing s tokens with
  | _ n ih =>
    intro s' rest hrun
    rw [run_separated] at hrun ⊢
    dsimp only
    split at hrun
    · rename_i hend
      rwa [if_pos hend]
    · rename_i hend
      rw [if_neg hend]
      cases hresult : (item s).run src tokens with
      | error error =>
        rw [hresult] at hrun
        exact absurd hrun (by simp)
      | ok result =>
        have hlength := length_le_of_run hresult
        obtain ⟨s'', rest'⟩ := result
        rw [hresult] at hrun
        rw [hitem s tokens _ _ hresult]
        dsimp only at hrun ⊢
        split at hrun
        · rename_i hclose
          rwa [if_pos hclose]
        · rename_i hclose
          rw [if_neg hclose]
          cases rest' with
          | nil => exact absurd hrun (by simp)
          | cons v more =>
            dsimp only at hrun ⊢
            split at hrun
            · rename_i hcomma
              rw [if_pos hcomma]
              exact ih more.length (by rw [← hn]; exact hlength) more rfl s' rest hrun
            · exact absurd hrun (by simp)

/-- The segments of a path are identifiers in every host, by induction on the tokens. -/
lemma pathSegments {last : Token} : Carries src host (pathSegments last) := by
  intro tokens
  induction hn : tokens.length using Nat.strong_induction_on generalizing last tokens with
  | _ n ih =>
    intro t rest hrun
    rw [run_pathSegments] at hrun ⊢
    cases tokens with
    | nil => exact hrun
    | cons u more =>
      dsimp only at hrun ⊢
      split at hrun
      · rename_i hsep
        rw [if_pos hsep]
        rw [run_bind] at hrun ⊢
        cases hresult : (Parser.expect .ident .functionPathSegment).run src more with
        | error error =>
          rw [hresult] at hrun
          exact absurd hrun (by simp)
        | ok result =>
          have hlength := length_le_of_run hresult
          rw [hresult] at hrun
          rw [expect more _ _ hresult]
          exact ih result.2.length (by rw [← hn]; exact Nat.lt_succ_of_le hlength) result.2 rfl
            t rest hrun
      · rename_i hsep
        rwa [if_neg hsep]

lemma customPath : Carries src host customPath := by
  refine advance.bind fun openBracket => current.bind fun first => ?_
  refine ite failAt_bind (accept?.bind fun _ => expect.bind fun name => ?_)
  refine pathSegments.bind fun last => current.bind fun t => ite ?_ failAt_bind
  exact skip.bind fun _ => textBetween

lemma modifier : Carries src host modifier := by
  refine current.bind fun t => ?_
  split
  · exact skip.bind fun _ => accepts.bind fun _ => pure
  · exact skip.bind fun _ => accepts.bind fun _ => pure
  · exact skip.bind fun _ => pure
  · refine customPath.bind fun path => accepts.bind fun hasAmp => ?_
    exact ite (accepts.bind fun _ => pure) pure
  · exact ite failAt pure

section

variable (hsrc : src.host.hasSoftKeywords = false)

include hsrc

lemma nameAfter {m : Modifier} : Carries src host (nameAfter m) := by
  intro tokens name rest hrun
  simp only [Parser.nameAfter, run_bind, run_current, run_isName, hsrc, Bool.false_and,
    Bool.or_false] at hrun ⊢
  split at hrun
  · rename_i hname
    rw [hname, Bool.true_or, if_pos rfl]
    exact hrun
  · split at hrun <;> cases hrun

lemma expectName {sought : Sought} : Carries src host (expectName sought) := by
  intro tokens name rest hrun
  simp only [Parser.expectName, run_bind, run_current, run_isName, hsrc, Bool.false_and,
    Bool.or_false] at hrun ⊢
  split at hrun
  · rename_i hname
    rw [hname, Bool.true_or, if_pos rfl]
    exact hrun
  · rename_i hname
    simp only [beq_iff_eq] at hname
    rw [Parser.expect, run_bind, run_current] at hrun
    dsimp only at hrun
    rw [if_neg hname] at hrun
    cases hrun

lemma sourceField {stops : List TokenKind} : Carries src host (sourceField stops) := by
  intro tokens name rest hrun
  simp only [Parser.sourceField, run_bind, run_current, run_following, run_isName, hsrc,
    Bool.false_and, Bool.or_false] at hrun ⊢
  split at hrun
  · rename_i hname
    obtain ⟨hident, hstop⟩ := Bool.and_eq_true_iff.mp hname
    rw [hident, Bool.true_or, Bool.true_and, if_pos hstop]
    exact hrun
  · cases hrun

/-- No name follows where an entry ends. -/
lemma exists_error_of_end {tokens : List Token}
    (hend : (tokens.headD src.eof).kind ∈ [TokenKind.colon, .comma, .closeBrace, .eof])
    (f : Modifier → Token → Parser β) :
    ∃ error, (Parser.modifier >>= fun m => Parser.nameAfter m >>= f m).run src tokens =
      .error error := by
  simp only [List.mem_cons, List.not_mem_nil, or_false] at hend
  rw [run_bind, Parser.modifier, run_bind, run_current]
  dsimp only
  rcases hend with hkind | hkind | hkind | hkind
  · rw [hkind]
    exact ⟨_, rfl⟩
  all_goals
    have hname : (Parser.nameAfter .direct).run src tokens =
        .error (.fault (.expected .fieldName (found (tokens.headD src.eof)))
          (tokens.headD src.eof).position) := by
      rw [Parser.nameAfter, run_bind, run_current]
      dsimp only
      rw [run_bind, run_isName, hkind, hsrc]
      rfl
    rw [hkind]
    dsimp only
    rw [if_neg (by decide), run_pure]
    dsimp only
    rw [run_bind, hname]
    exact ⟨_, rfl⟩

/-- Where a word that ends an entry is no name it is a mark, and then the entry has no name. -/
lemma exists_error_of_mut {stops : List TokenKind} {inGroup allowMut : Bool} {tokens : List Token}
    (hstops : ∀ kind ∈ stops, kind ∈ [TokenKind.comma, .closeBrace, .eof])
    (hmut : (tokens.headD src.eof).kind = .wordMut)
    (hnext : (tokens.tail.headD src.eof).kind ∈ TokenKind.colon :: .eof :: stops) :
    ∃ error, (entry stops inGroup allowMut).run src tokens = .error error := by
  have hend : (tokens.tail.headD src.eof).kind ∈ [TokenKind.colon, .comma, .closeBrace, .eof] := by
    rcases List.mem_cons.mp hnext with hkind | hnext
    · rw [hkind]
      decide
    rcases List.mem_cons.mp hnext with hkind | hnext
    · rw [hkind]
      decide
    · exact List.mem_cons_of_mem _ (hstops _ hnext)
  have hmark : (Parser.mutMark stops).run src tokens =
      .ok (some (tokens.headD src.eof), tokens.drop 1) := by
    rw [run_mutMark, hmut, hsrc, if_neg (by simp), Parser.accept?, run_bind, run_current]
    dsimp only
    rw [if_pos hmut]
    rfl
  rw [Parser.entry, run_bind, run_current]
  dsimp only
  rw [run_bind, hmark]
  dsimp only
  cases allowMut with
  | false => exact ⟨_, rfl⟩
  | true =>
    rw [List.drop_one]
    exact exists_error_of_end hsrc hend _

/-- An entry is read in the same way in both hosts: a leading word that only one of them takes for a
name ends the entry, which the other one refuses. -/
lemma entry {stops : List TokenKind} {inGroup allowMut : Bool}
    (hstops : ∀ kind ∈ stops, kind ∈ [TokenKind.comma, .closeBrace, .eof]) :
    Carries src host (entry stops inGroup allowMut) := by
  intro tokens
  by_cases hname : (tokens.headD src.eof).kind = .wordMut ∧
    (tokens.tail.headD src.eof).kind ∈ TokenKind.colon :: .eof :: stops
  · intro e rest hrun
    have hrefused : ∃ error, (Parser.entry stops inGroup allowMut).run src tokens = .error error :=
      exists_error_of_mut hsrc hstops hname.1 hname.2
    obtain ⟨error, herror⟩ := hrefused
    rw [herror] at hrun
    cases hrun
  have hmark : CarriesOn src host tokens (Parser.mutMark stops) := by
    have hmut : ¬((tokens.headD src.eof).kind = .wordMut ∧
        (TokenKind.colon :: .eof :: stops).contains (tokens.tail.headD src.eof).kind = true) := by
      rwa [List.contains_iff_mem]
    intro mark rest hrun
    rw [run_mutMark, if_neg (by simp_all)] at hrun ⊢
    exact accept? tokens mark rest hrun
  refine CarriesOn.current_bind (hmark.bind fun mark => ?_)
  rcases mark with _ | t
  case' some => refine ite ?_ failAt_bind
  all_goals
    refine modifier.bind fun m => (nameAfter hsrc).bind fun name => accepts.bind fun hasColon => ?_
    refine ite (ite ?_ ?_) pure
    · exact (sourceField hsrc).bind fun source => pure
    · exact capture.bind fun value => pure

lemma groupEntry {openBrace : Token} {allowMut : Bool} {entries : List Entry} :
    Carries src host (groupEntry openBrace allowMut entries) := by
  refine current.bind fun t => ite failAt_bind (ite failAt_bind ?_)
  refine (entry hsrc (by decide)).bind fun e => current.bind fun next => ite failAt_bind pure

lemma group {rule : ListRule} : Carries src host (group rule) := by
  refine advance.bind fun openBrace => (separated fun _ => groupEntry hsrc).bind fun entries => ?_
  refine skip.bind fun _ => ite failAt_bind (current.bind fun t => ite ?_ failAt_bind)
  exact skip.bind fun _ => capture.bind fun source => pure

lemma item {rule : ListRule} (hclose : rule.close = .closeBrace ∨ rule.close = .eof)
    {items : List Item} : Carries src host (item rule items) := by
  refine current.bind fun t => ite failAt (ite ((group hsrc).bind fun g => pure) ?_)
  refine ite failAt ((entry hsrc ?_).bind fun e => pure)
  rcases hclose with hclose | hclose
  · rw [hclose]
    decide
  · rw [hclose]
    decide

omit hsrc in
lemma base {rule : ListRule} : Carries src host (base rule) := by
  refine current.bind fun t => ite (ite ?_ failAt_bind) pure
  refine skip.bind fun _ => capture.bind fun base => current.bind fun next => ?_
  exact ite failAt_bind pure

lemma fieldList {rule : ListRule} (hclose : rule.close = .closeBrace ∨ rule.close = .eof) :
    Carries src host (fieldList rule) :=
  (separated fun _ => item hsrc hclose).bind fun _ => base.bind fun _ => pure

lemma wholeFieldList {allowBase allowMut : Bool} :
    Carries src host (wholeFieldList allowBase allowMut) := by
  refine remaining.bind fun tokens => ite ?_ (fieldList hsrc (.inr rfl))
  exact skip.bind fun _ => (fieldList hsrc (.inl rfl)).bind fun c => expect.bind fun _ => pure

end

lemma genericParam {params : List GenericParam} : Carries src host (genericParam params) := by
  refine capture.bind fun decl => ?_
  split
  · exact pure
  · exact current.bind fun _ => failAt

lemma generics : Carries src host generics :=
  accepts.bind fun _ => ite
    ((separated fun _ => genericParam).bind fun _ => skip.bind fun _ => pure) pure

lemma visibility : Carries src host visibility := by
  refine accept?.bind fun pub? => ?_
  cases pub? with
  | none => exact pure
  | some pub =>
    refine current.bind fun t => ite (bracketed.bind fun _ => pure) ?_
    exact textBetween.bind fun _ => pure

lemma typeText {stops : List TokenKind} {sought : Sought} :
    Carries src host (typeText stops sought) :=
  capture.bind fun _ => pure

lemma typeAfter? {mark : TokenKind} {stops : List TokenKind} {sought : Sought} :
    Carries src host (typeAfter? mark stops sought) :=
  accepts.bind fun _ => ite (typeText.bind fun _ => pure) pure

lemma bareName {i : Item} : Carries src host (bareName i) := by
  cases i with
  | group g => exact failAt
  | entry e => exact ite failAt_bind pure

lemma cloneEntry {e : Entry} : Carries src host (cloneEntry e) :=
  ite pure failAt_bind

lemma messageArgument {args : List Expression} : Carries src host (messageArgument args) :=
  capture.bind fun _ => pure

section

variable (hsrc : src.host.hasSoftKeywords = false)

include hsrc

lemma argument : Carries src host argument := by
  refine current.bind fun first => modifier.bind fun m => (nameAfter hsrc).bind fun name => ?_
  refine ite (ite pure failAt_bind) (typeAfter?.bind fun type => accepts.bind fun _ => ?_)
  exact ite (bind (capture.bind fun _ => pure) fun _ => pure) (pure.bind fun _ => pure)

lemma nextArgument {openParen : Token} {state : Option Modifier × List Argument} :
    Carries src host (nextArgument openParen state) := by
  refine current.bind fun t => ite failAt_bind ((argument hsrc).bind fun read => ?_)
  cases read with
  | inl a => exact pure
  | inr receiver => exact ite pure failAt_bind

lemma structUpdate : Carries src host structUpdate := by
  refine capture.bind fun typePath => expect.bind fun _ => ?_
  refine (fieldList hsrc (.inl rfl)).bind fun c => expect.bind fun _ => ?_
  exact expectEnd.bind fun _ => pure

lemma anonRecord : Carries src host anonRecord := by
  refine current.bind fun first => (wholeFieldList hsrc).bind fun c => expectEnd.bind fun _ => ?_
  exact ite failAt_bind pure

lemma rebindingEntries : Carries src host rebindingEntries := by
  refine current.bind fun first => (wholeFieldList hsrc).bind fun c => expectEnd.bind fun _ => ?_
  exact ite failAt_bind (mapM (fun _ => bareName) _)

lemma rebinding : Carries src host rebinding :=
  (rebindingEntries hsrc).bind fun _ => pure

lemma cloneRebinding : Carries src host cloneRebinding :=
  (rebindingEntries hsrc).bind fun entries =>
    (mapM (fun _ => cloneEntry) entries).bind fun _ => pure

lemma holder : Carries src host holder := by
  refine visibility.bind fun visibility => accept?.bind fun _ => accepts.bind fun byRef => ?_
  refine expect.bind fun name => generics.bind fun params => ?_
  refine typeAfter?.bind fun whereClause => expect.bind fun _ => ?_
  refine generics.bind fun callGenerics => ?_
  refine typeAfter?.bind fun callWhere => expect.bind fun _ => ?_
  refine current.bind fun pathStart => typeText.bind fun path => expect.bind fun openParen => ?_
  refine (separated fun _ => nextArgument hsrc).bind fun state => skip.bind fun _ => ?_
  refine typeAfter?.bind fun returnType => expectEnd.bind fun _ => ite failAt_bind ?_
  exact ite failAt_bind pure

lemma nextFieldName {names : List Token} : Carries src host (nextFieldName names) := by
  refine (expectName hsrc).bind fun t => ?_
  cases names.find? (·.value == t.value) with
  | some first => exact of_run_eq fun _ => rfl
  | none => exact pure

lemma fieldNames : Carries src host fieldNames := by
  refine expect.bind fun openBracket => (separated fun _ => nextFieldName hsrc).bind fun names => ?_
  exact skip.bind fun _ => ite failAt_bind pure

lemma expectedRecord : Carries src host expectedRecord := by
  refine advance.bind fun openBrace => (fieldList hsrc (.inl rfl)).bind fun c => ?_
  exact expect.bind fun _ => ite failAt_bind pure

lemma expectedValue : Carries src host expectedValue :=
  capture.bind fun _ => expect.bind fun _ => (fieldNames hsrc).bind fun _ => pure

lemma assertion : Carries src host assertion := by
  refine capture.bind fun actual => expect.bind fun _ => current.bind fun t => ?_
  refine ite ((expectedRecord hsrc).bind fun expected => ?_)
    ((expectedValue hsrc).bind fun expected => ?_)
  all_goals
    refine accepts.bind fun _ => ite ?_ (pure.bind fun _ => expectEnd.bind fun _ => pure)
    exact (separated fun _ => messageArgument).bind fun _ => expectEnd.bind fun _ => pure

/-- What an entry point reads in a host without the words of the grammar among its names, it reads
in every host. -/
theorem invocation (entryPoint : EntryPoint) : Carries src host (invocation entryPoint) := by
  cases entryPoint with
  | spread => exact structUpdate hsrc
  | anon => exact anonRecord hsrc
  | slet => exact rebinding hsrc
  | clone => exact cloneRebinding hsrc
  | fnStruct => exact holder hsrc
  | assertFieldsEq => exact assertion hsrc

end

end Carries

end Parser

/-- A text that both dialects split into the same tokens is accepted by the python dialect whenever
the rust dialect accepts it, and is read as the same invocation. -/
theorem Invocation.ofText_python_of_rust {entryPoint : EntryPoint} {text : String}
    (htokens : Tokens.ofText (.dialect .rust) text = Tokens.ofText (.dialect .python) text)
    {i : Invocation} (h : Invocation.ofText entryPoint (.dialect .rust) text = .ok i) :
    Invocation.ofText entryPoint (.dialect .python) text = .ok i := by
  rw [Invocation.ofText, Parser.onText] at h ⊢
  rw [← htokens]
  cases hscan : Tokens.ofText (.dialect .rust) text with
  | error error =>
    rw [hscan] at h
    cases h
  | ok tokens =>
    rw [hscan] at h
    dsimp only at h ⊢
    let src : Source := ⟨.dialect .rust, text, tokens.eof⟩
    have hcarries : Parser.Carries src (.dialect .python) (Parser.invocation entryPoint) :=
      Parser.Carries.invocation rfl entryPoint
    cases hresult : (Parser.invocation entryPoint).run src tokens.body with
    | error error =>
      rw [hresult] at h
      cases h
    | ok result =>
      rw [hresult] at h
      rw [hcarries tokens.body _ _ hresult]
      exact h

/-- A marked name, and names behind modifiers that end in the word of the mark. -/
def Invocation.mutableNames : Invocation :=
  .rebinding { items := [
    .entry { name := "a", mutable := true, position := ⟨1, 1⟩ },
    .entry { name := "b", modifier := .refMut, position := ⟨1, 8⟩ },
    .entry { name := "c", modifier := .customRefMut "m.f", mutable := true, position := ⟨1, 16⟩ }] }

theorem ofText_python_of_rust_mutableNames :
    let text := "mut a, &mut b, mut [m.f]&mut c"
    Tokens.ofText (.dialect .rust) text = Tokens.ofText (.dialect .python) text ∧
      Invocation.ofText .slet (.dialect .rust) text = .ok .mutableNames ∧
      Invocation.ofText .slet (.dialect .python) text = .ok .mutableNames := by
  intro text
  have htokens : Tokens.ofText (.dialect .rust) text = Tokens.ofText (.dialect .python) text := by
    decide +kernel
  have hread : Invocation.ofText .slet (.dialect .rust) text = .ok .mutableNames := by
    decide +kernel
  exact ⟨htokens, hread, Invocation.ofText_python_of_rust htokens hread⟩

end FieldComposition
