import FieldComposition.Proofs.CapturedText
import FieldComposition.Proofs.MovedExpressions

/-!
# Invocations of separable texts

`Parser.Leaves` says what a parser returns from the last tokens of a text, of which it leaves the
last ones. The names in an invocation of the python dialect are words, and its paths and expressions
are texts of consecutive tokens, so they are separable (`isSeparable_of_ofText`): an expression
unless it has a turbofish, and the path of a type unless it has a comma outside of its brackets.
-/

namespace FieldComposition

/-- The tokens of a text in the python dialect; a text that is no list of tokens has none. -/
def Text.tokens (s : String) : List Token :=
  match Tokens.ofText (.dialect .python) s with
  | .ok tokens => tokens.body
  | .error _ => []

/-- Somewhere in the text a `<` stands right behind a `::`. -/
def Text.HasTurbofish (s : String) : Prop :=
  TokenKind.turbofish <:+: (tokens s).map Token.kind

/-- The text has a comma outside of all brackets. -/
def Text.HasOuterComma (s : String) : Prop :=
  1 < (Token.splitAtCommas 0 (tokens s)).length

instance (s : String) : Decidable (Text.HasTurbofish s) :=
  inferInstanceAs (Decidable (_ <:+: _))

instance (s : String) : Decidable (Text.HasOuterComma s) :=
  inferInstanceAs (Decidable (_ < _))

/-- An expression that is separable unless it has a turbofish. -/
def Expression.IsSeparable (e : Expression) : Prop :=
  ¬Text.HasTurbofish e.text → Separable false e.text.toList

/-- A type that is separable unless it has a comma outside of its brackets. -/
def Expression.IsSeparableType (e : Expression) : Prop :=
  ¬Text.HasOuterComma e.text → Separable false e.text.toList

structure Entry.IsSeparable (e : Entry) : Prop where
  isWord_name : Text.IsWord e.name.toList
  isWord_rename : ∀ rename ∈ e.rename, Text.IsWord rename.toList
  isSeparable_value : ∀ value ∈ e.value, value.IsSeparable
  separable_path : ∀ path ∈ e.modifier.path?, Separable false path.toList

structure Composition.IsSeparable (c : Composition) : Prop where
  isSeparable_entries : ∀ i ∈ c.items, ∀ e ∈ i.entries, e.IsSeparable
  isSeparable_base : ∀ base ∈ c.base, base.IsSeparable

def RecordForm.IsSeparable : RecordForm → Prop
  | update typePath => typePath.IsSeparableType
  | anonymous => True

/-- The field list of a record and the type that it is made into. -/
def Invocation.IsSeparable (i : Invocation) : Prop :=
  ∀ (form : RecordForm) c, i = form.invocation c → form.IsSeparable ∧ c.IsSeparable

namespace Parser

variable {α β σ : Type} {host : Host} {text : String} {tokens : Tokens} {ts rest : List Token}
  {p q : Parser α} {P : α → Prop} {Q : β → Prop}

/-- From the last tokens of a text, a parser that succeeds returns a value of which `P` holds, and
it leaves the last tokens of the text. -/
def Leaves (host : Host) (text : String) (tokens : Tokens) (p : Parser α) (P : α → Prop) : Prop :=
  ∀ ts, ts <:+ tokens.body → ∀ a rest,
    p.run ⟨host, text, tokens.eof⟩ ts = .ok (a, rest) →
      P a ∧ rest <:+ tokens.body

section Runs

variable {src : Source}

/-- The segments of a path are consecutive tokens up to the last one. -/
lemma exists_run_of_pathSegments (heof : src.eof.kind = .eof) {name last : Token}
    (h : (pathSegments name).run src ts = .ok (last, rest)) :
    ∃ front, ts = front ++ rest ∧ (name :: front).getLast? = some last ∧
      ∀ t ∈ front, t.kind.IsInert := by
  induction hn : ts.length using Nat.strong_induction_on generalizing name ts with
  | _ n ih =>
    rw [run_pathSegments] at h
    cases ts with
    | nil =>
      obtain ⟨rfl, rfl⟩ := Prod.mk.inj (Except.ok.inj h)
      exact ⟨[], rfl, rfl, by simp⟩
    | cons t more =>
      dsimp only at h
      split at h
      · rename_i hseparator
        obtain ⟨name', mid, hname, hsegments⟩ := exists_of_run_bind h
        obtain ⟨rfl, hident⟩ := eq_cons_of_run_expect (by rw [heof]; decide) hname
        have hlength : mid.length < n := by
          rw [← hn, List.length_cons, List.length_cons]
          omega
        obtain ⟨front, rfl, hlast, hinert⟩ := ih mid.length hlength hsegments rfl
        refine ⟨t :: name' :: front, rfl, ?_, ?_⟩
        · rw [List.getLast?_cons_cons, List.getLast?_cons_cons]
          exact hlast
        · have hseparators : t.kind.IsInert := by
            rcases (Bool.or_eq_true _ _).mp hseparator with hkind | hkind <;>
              rw [of_decide_eq_true hkind] <;> exact ⟨rfl, rfl, by decide⟩
          have hname : name'.kind.IsInert := by
            rw [hident]
            exact ⟨rfl, rfl, by decide⟩
          simpa [hseparators, hname] using hinert
      · obtain ⟨rfl, rfl⟩ := Prod.mk.inj (Except.ok.inj h)
        exact ⟨[], rfl, rfl, by simp⟩

end Runs

namespace Leaves

lemma bind {f : α → Parser β} (hp : Leaves host text tokens p P)
    (hf : ∀ a, P a → Leaves host text tokens (f a) Q) : Leaves host text tokens (p >>= f) Q := by
  intro ts hts b rest hrun
  obtain ⟨a, mid, ha, hb⟩ := exists_of_run_bind hrun
  obtain ⟨ha, hmid⟩ := hp ts hts a mid ha
  exact hf a ha mid hmid b rest hb

lemma pure {a : α} (h : P a) : Leaves host text tokens (pure a) P := by
  intro ts hts b rest hrun
  obtain ⟨rfl, rfl⟩ := Prod.mk.inj (Except.ok.inj hrun)
  exact ⟨h, hts⟩

lemma ite {c : Prop} [Decidable c] (hp : c → Leaves host text tokens p P)
    (hq : ¬c → Leaves host text tokens q P) : Leaves host text tokens (if c then p else q) P := by
  by_cases hc : c
  · rw [if_pos hc]
    exact hp hc
  · rw [if_neg hc]
    exact hq hc

lemma failAt {fault : SyntaxFault} {position : Position} :
    Leaves host text tokens (failAt fault position) P :=
  fun _ _ _ _ hrun => by cases hrun

lemma failAt_bind {fault : SyntaxFault} {position : Position} {f : α → Parser β} :
    Leaves host text tokens (Parser.failAt fault position >>= f) Q :=
  fun _ _ _ _ hrun => by cases hrun

/-- A step that reads nothing. -/
lemma of_run_eq {f : List Token → α} (h : ∀ ts, p.run ⟨host, text, tokens.eof⟩ ts =
    .ok (f ts, ts)) : Leaves host text tokens p fun _ => True := by
  intro ts hts a rest hrun
  rw [h] at hrun
  obtain ⟨-, rfl⟩ := Prod.mk.inj (Except.ok.inj hrun)
  exact ⟨trivial, hts⟩

lemma current : Leaves host text tokens current fun _ => True :=
  of_run_eq (run_current _)

lemma following : Leaves host text tokens following fun _ => True :=
  of_run_eq (run_following _)

lemma remaining : Leaves host text tokens remaining fun _ => True :=
  of_run_eq (run_remaining _)

lemma isName {t : Token} : Leaves host text tokens (isName t) fun _ => True :=
  of_run_eq (run_isName t _)

lemma skip {n : Nat} : Leaves host text tokens (skip n) fun _ => True := by
  intro ts hts a rest hrun
  obtain ⟨-, rfl⟩ := Prod.mk.inj (Except.ok.inj hrun)
  exact ⟨trivial, (List.drop_suffix n ts).trans hts⟩

lemma advance : Leaves host text tokens advance fun _ => True :=
  current.bind fun _ _ => skip.bind fun _ _ => pure trivial

lemma expect {kind : TokenKind} {sought : Sought} :
    Leaves host text tokens (expect kind sought) fun _ => True :=
  current.bind fun _ _ => ite (fun _ => advance) fun _ => failAt

lemma accept? {kind : TokenKind} : Leaves host text tokens (accept? kind) fun _ => True :=
  current.bind fun _ _ => ite (fun _ => skip.bind fun _ _ => pure trivial) fun _ => pure trivial

lemma accepts {kind : TokenKind} : Leaves host text tokens (accepts kind) fun _ => True :=
  accept?.bind fun _ _ => pure trivial

lemma expectEnd : Leaves host text tokens expectEnd fun _ => True :=
  current.bind fun _ _ => ite (fun _ => pure trivial) fun _ => failAt

/-- Repeated items keep what each of them keeps, by induction on the tokens that are left. -/
lemma separated {P : σ → Prop} {close : TokenKind} {stops : TokenKind → Bool} {sought : Sought}
    {item : σ → Parser σ} (hitem : ∀ s, P s → Leaves host text tokens (item s) P) {s : σ}
    (hs : P s) : Leaves host text tokens (separated close stops sought item s) P := by
  intro ts
  induction hn : ts.length using Nat.strong_induction_on generalizing s ts with
  | _ n ih =>
    intro hts s' rest hrun
    rw [run_separated] at hrun
    split at hrun
    · obtain ⟨rfl, rfl⟩ := Prod.mk.inj (Except.ok.inj hrun)
      exact ⟨hs, hts⟩
    cases hresult : (item s).run ⟨host, text, tokens.eof⟩ ts with
    | error error =>
      rw [hresult] at hrun
      cases hrun
    | ok result =>
      have hlength := length_le_of_run hresult
      obtain ⟨s'', rest'⟩ := result
      obtain ⟨hs'', hrest'⟩ := hitem s hs ts hts _ _ hresult
      rw [hresult] at hrun
      dsimp only at hrun
      split at hrun
      · obtain ⟨rfl, rfl⟩ := Prod.mk.inj (Except.ok.inj hrun)
        exact ⟨hs'', hrest'⟩
      cases rest' with
      | nil => cases hrun
      | cons v more =>
        dsimp only at hrun
        split at hrun
        · exact ih more.length (by rw [← hn]; exact hlength) hs'' more rfl
            ((List.suffix_cons v more).trans hrest') s' rest hrun
        · cases hrun

lemma mutMark {stops : List TokenKind} : Leaves host text tokens (mutMark stops) fun _ => True := by
  refine current.bind fun t _ => following.bind fun next _ => isName.bind fun isName _ => ?_
  exact ite (fun _ => pure trivial) fun _ => accept?

section

variable (htokens : Tokens.ofText (.dialect .python) text = .ok tokens)

include htokens

/-- The text that is captured is separable by itself. -/
lemma capture_isSeparable {rule : CaptureRule} (hgreater : .greater ∉ rule.stops)
    (hcomma : .comma ∈ rule.stops) (hangles : rule.angles = false) :
    Leaves (.dialect .python) text tokens (capture rule) Expression.IsSeparable := by
  intro ts hts e rest hrun
  obtain ⟨front, rfl, hne, he, -, hfront⟩ := exists_run_of_capture hgreater hrun
  obtain ⟨before, hbody⟩ := hts
  refine ⟨fun hturbofish => ?_, before ++ front, by rw [List.append_assoc, hbody]⟩
  obtain ⟨tokens', htokens', hlexemes⟩ := Tokens.exists_ofText_textOf htokens hbody.symm hne
  have hkinds := Token.map_kind_eq_of_lexemes hlexemes
  rw [he]
  refine .textOf htokens hbody.symm hne (hfront hcomma hangles ?_)
  rwa [Text.HasTurbofish, Text.tokens, he, htokens', hkinds] at hturbofish

/-- A type may hold lists in angle brackets, and then commas outside of all other brackets. -/
lemma capture_isSeparableType {rule : CaptureRule} (hgreater : .greater ∉ rule.stops) :
    Leaves (.dialect .python) text tokens (capture rule) Expression.IsSeparableType := by
  intro ts hts e rest hrun
  obtain ⟨front, rfl, hne, he, hfront, -⟩ := exists_run_of_capture hgreater hrun
  obtain ⟨before, hbody⟩ := hts
  refine ⟨fun hcomma => ?_, before ++ front, by rw [List.append_assoc, hbody]⟩
  obtain ⟨tokens', htokens', hlexemes⟩ := Tokens.exists_ofText_textOf htokens hbody.symm hne
  have hkinds := Token.map_kind_eq_of_lexemes hlexemes
  rw [he]
  refine .textOf htokens hbody.symm hne ?_
  rw [Text.HasOuterComma, Text.tokens, he, htokens', Nat.not_lt] at hcomma
  rw [← hkinds] at hfront ⊢
  exact Token.enclosed_of_length_splitAtCommas hfront hcomma

/-- The next token is a word when it is a name. -/
lemma isWord_headD (hts : ts <:+ tokens.body)
    (hname : let t := ts.headD tokens.eof
      t.kind == .ident || ((Host.dialect .python).hasSoftKeywords && t.kind.isSoftKeyword)) :
    Text.IsWord (ts.headD tokens.eof).value.toList := by
  have heof := Tokens.kind_eof_of_ofText htokens
  have hkind : (ts.headD tokens.eof).kind = .ident ∨ (ts.headD tokens.eof).kind.isSoftKeyword := by
    simpa [Host.hasSoftKeywords] using hname
  cases ts with
  | nil =>
    rw [List.headD_nil, heof] at hkind
    exact absurd hkind (by decide)
  | cons t ts =>
    rw [List.headD_cons] at hkind ⊢
    have ht : t ∈ tokens.body := hts.subset List.mem_cons_self
    obtain ⟨-, -, hspans, c, rest, more, hdrop, hread, hstop⟩ :=
      (Tokens.tiled_of_ofText htokens).forall_mem t ht
    have hnewline : Lexeme.read (.dialect .python) c (rest ++ '\n' :: []) =
        .ok ⟨some t.kind, more⟩ ∧ more ≤ rest.length := Lexeme.read_append_newline hread
    have hlength : (rest.take more).length = more := List.length_take_of_le hnewline.2
    have hread' : Lexeme.read (.dialect .python) c (rest.take more ++ rest.drop more) =
        .ok ⟨some t.kind, (rest.take more).length⟩ := by
      rw [List.take_append_drop, hlength]
      exact hread
    rw [hspans.value_eq, String.toList_ofList, hstop, Nat.add_sub_cancel_left, hdrop,
      List.length_cons, List.take_succ_cons, hlength]
    exact (Lexeme.isWord_of_read hread' (TokenKind.isWord_of_isSoftKeyword hkind)).1

lemma nameAfter {m : Modifier} :
    Leaves (.dialect .python) text tokens (nameAfter m) fun t => Text.IsWord t.value.toList := by
  intro ts hts name rest hrun
  simp only [Parser.nameAfter, run_bind, run_current, run_isName] at hrun
  split at hrun
  · rename_i hname
    rw [run_advance] at hrun
    obtain ⟨rfl, rfl⟩ := Prod.mk.inj (Except.ok.inj hrun)
    exact ⟨isWord_headD htokens hts hname, (List.drop_suffix 1 ts).trans hts⟩
  · split at hrun <;> cases hrun

lemma sourceField {stops : List TokenKind} :
    Leaves (.dialect .python) text tokens (sourceField stops) fun t =>
      Text.IsWord t.value.toList := by
  intro ts hts name rest hrun
  simp only [Parser.sourceField, run_bind, run_current, run_following, run_isName] at hrun
  split at hrun
  · rename_i hname
    rw [run_advance] at hrun
    obtain ⟨rfl, rfl⟩ := Prod.mk.inj (Except.ok.inj hrun)
    exact ⟨isWord_headD htokens hts (Bool.and_eq_true_iff.mp hname).1,
      (List.drop_suffix 1 ts).trans hts⟩
  · cases hrun

lemma customPath :
    Leaves (.dialect .python) text tokens customPath fun path => Separable false path.toList := by
  have heof := Tokens.kind_eof_of_ofText htokens
  refine advance.bind fun openBracket _ => fun ts hts path rest hrun => ?_
  obtain ⟨first, mid, hfirst, hrun⟩ := exists_of_run_bind hrun
  obtain ⟨rfl, rfl⟩ := Prod.mk.inj (Except.ok.inj hfirst)
  split at hrun
  · cases hrun
  obtain ⟨mark?, behind, hmark, hrun⟩ := exists_of_run_bind hrun
  obtain ⟨name, segments, hname, hrun⟩ := exists_of_run_bind hrun
  obtain ⟨last, after, hsegments, hrun⟩ := exists_of_run_bind hrun
  obtain ⟨t, mid, ht, hrun⟩ := exists_of_run_bind hrun
  obtain ⟨rfl, rfl⟩ := Prod.mk.inj (Except.ok.inj ht)
  split at hrun
  case isFalse => cases hrun
  obtain ⟨rfl, rfl⟩ := Prod.mk.inj (Except.ok.inj hrun)
  obtain ⟨rfl, hpathSep⟩ := eq_append_of_run_accept? (by rw [heof]; decide) hmark
  obtain ⟨rfl, hident⟩ := eq_cons_of_run_expect (by rw [heof]; decide) hname
  obtain ⟨front, rfl, hlast, hfront⟩ := exists_run_of_pathSegments heof hsegments
  obtain ⟨before, hbody⟩ := hts
  let run := mark?.toList ++ name :: front
  have hbody : tokens.body = before ++ (run ++ after) := by
    rw [← hbody]
    simp [run]
  have hne : run ≠ [] := by simp [run]
  have hrunLast : run.getLast? = some last := by
    rw [List.getLast?_append_of_ne_nil _ (List.cons_ne_nil _ _), hlast]
  have hinert : ∀ kind ∈ run.map Token.kind, kind.IsInert := by
    rintro kind hkind
    obtain ⟨t, ht, rfl⟩ := List.mem_map.mp hkind
    rcases List.mem_append.mp ht with ht | ht
    · rw [hpathSep t (Option.mem_toList.mp ht)]
      exact ⟨rfl, rfl, by decide⟩
    rcases List.mem_cons.mp ht with rfl | ht
    · rw [hident]
      exact ⟨rfl, rfl, by decide⟩
    · exact hfront t ht
  have htext : Token.textOf text run = Text.slice text
      ((mark?.toList ++ name :: (front ++ after)).headD tokens.eof).start last.stop := by
    cases mark? with
    | none => exact Token.textOf_eq rfl hrunLast
    | some mark => exact Token.textOf_eq rfl hrunLast
  refine ⟨?_, ?_⟩
  · rw [← htext]
    exact .textOf htokens hbody hne (.of_forall hinert)
  · refine (List.drop_suffix 1 after).trans ?_
    rw [hbody, ← List.append_assoc]
    exact List.suffix_append _ _

lemma modifier : Leaves (.dialect .python) text tokens modifier fun m =>
    ∀ path ∈ m.path?, Separable false path.toList := by
  refine current.bind fun t _ => ?_
  split
  · refine skip.bind fun _ _ => accepts.bind fun hasMut _ => pure ?_
    cases hasMut <;> simp [Modifier.path?]
  · refine skip.bind fun _ _ => accepts.bind fun hasGreater _ => pure ?_
    cases hasGreater <;> simp [Modifier.path?]
  · exact skip.bind fun _ _ => pure (by simp [Modifier.path?])
  · refine (customPath htokens).bind fun path hpath => accepts.bind fun hasAmp _ => ?_
    refine ite (fun _ => accepts.bind fun hasMut _ => pure ?_) fun _ => pure ?_
    · cases hasMut <;> simpa [Modifier.path?] using hpath
    · simpa [Modifier.path?] using hpath
  · exact ite (fun _ => failAt) fun _ => pure (by simp [Modifier.path?])

lemma entry {stops : List TokenKind} {inGroup allowMut : Bool} (hcomma : .comma ∈ stops)
    (hgreater : .greater ∉ stops) :
    Leaves (.dialect .python) text tokens (entry stops inGroup allowMut) Entry.IsSeparable := by
  refine current.bind fun first _ => mutMark.bind fun mark _ => ?_
  have hplain (name : String) (m : Modifier) (hname : Text.IsWord name.toList)
      (hm : ∀ path ∈ m.path?, Separable false path.toList) :
      Entry.IsSeparable
        { name, modifier := m, mutable := mark.isSome, position := first.position } :=
    ⟨hname, by simp, by simp, hm⟩
  rcases mark with _ | t
  case' some => refine ite (fun hallow => ?_) fun _ => failAt_bind
  all_goals
    refine (modifier htokens).bind fun m hm => (nameAfter htokens).bind fun name hname => ?_
    have hplain := hplain name.value m hname hm
    refine accepts.bind fun _ _ => ite (fun _ => ?_) fun _ => pure hplain
    refine ite (fun _ => ?_) fun _ => ?_
    · refine (sourceField htokens).bind fun source hsource => pure ?_
      exact { hplain with
        isWord_name := hsource
        isWord_rename := by simpa using hname }
    · refine (capture_isSeparable htokens hgreater hcomma rfl).bind fun value hvalue => pure ?_
      exact { hplain with isSeparable_value := by simpa using hvalue }

lemma groupEntry {openBrace : Token} {allowMut : Bool} {entries : List Entry}
    (hentries : ∀ e ∈ entries, e.IsSeparable) :
    Leaves (.dialect .python) text tokens (groupEntry openBrace allowMut entries) fun entries =>
      ∀ e ∈ entries, e.IsSeparable := by
  refine current.bind fun t _ => ite (fun _ => failAt_bind) fun _ => ?_
  refine ite (fun _ => failAt_bind) fun _ => ?_
  refine (entry htokens (by decide) (by decide)).bind fun e he => current.bind fun next _ => ?_
  exact ite (fun _ => failAt_bind) fun _ => pure (Returns.forall_mem_snoc hentries he)

lemma group {rule : ListRule} (hclose : rule.close ≠ .greater) :
    Leaves (.dialect .python) text tokens (group rule) fun g => ∀ e ∈ g.entries, e.IsSeparable := by
  refine advance.bind fun openBrace _ => ?_
  refine (separated (fun _ h => groupEntry htokens h) (by simp)).bind fun entries hentries => ?_
  refine skip.bind fun _ _ => ite (fun _ => failAt_bind) fun _ => ?_
  refine current.bind fun t _ => ite (fun _ => skip.bind fun _ _ => ?_) fun _ => failAt_bind
  refine (capture_isSeparable htokens ?_ List.mem_cons_self rfl).bind fun source _ => pure hentries
  simpa using hclose.symm

lemma item {rule : ListRule} (hclose : rule.close ≠ .greater) {items : List Item}
    (hitems : ∀ i ∈ items, ∀ e ∈ i.entries, e.IsSeparable) :
    Leaves (.dialect .python) text tokens (item rule items) fun items =>
      ∀ i ∈ items, ∀ e ∈ i.entries, e.IsSeparable := by
  refine current.bind fun t _ => ite (fun _ => failAt) fun _ => ite (fun _ => ?_) fun _ => ?_
  · refine (group htokens hclose).bind fun g hg => pure ?_
    exact Returns.forall_mem_snoc hitems hg
  · refine ite (fun _ => failAt) fun _ => ?_
    refine (entry htokens List.mem_cons_self (by simpa using hclose.symm)).bind fun e he => ?_
    exact pure (Returns.forall_mem_snoc hitems (by simpa [Item.entries] using he))

lemma base {rule : ListRule} (hclose : rule.close ≠ .greater) :
    Leaves (.dialect .python) text tokens (base rule) fun base => ∀ e ∈ base, e.IsSeparable := by
  refine current.bind fun t _ => ite (fun _ => ?_) fun _ => pure (by simp)
  refine ite (fun hallow => ?_) fun _ => failAt_bind
  refine skip.bind fun _ _ => ?_
  refine (capture_isSeparable htokens (by simpa using hclose.symm) List.mem_cons_self rfl).bind
    fun base hbase => current.bind fun next _ => ite (fun _ => failAt_bind) fun _ => pure ?_
  simpa using hbase

lemma fieldList {rule : ListRule} (hclose : rule.close ≠ .greater) :
    Leaves (.dialect .python) text tokens (fieldList rule) Composition.IsSeparable := by
  refine (separated (fun _ h => item htokens hclose h) (by simp)).bind fun items hitems => ?_
  exact (base htokens hclose).bind fun base hbase => pure ⟨hitems, hbase⟩

lemma wholeFieldList {allowBase allowMut : Bool} :
    Leaves (.dialect .python) text tokens (wholeFieldList allowBase allowMut)
      Composition.IsSeparable := by
  refine remaining.bind fun ts _ => ite (fun _ => skip.bind fun _ _ => ?_) fun _ =>
    fieldList htokens (by simp)
  exact (fieldList htokens (by simp)).bind fun c hc => expect.bind fun _ _ => pure hc

lemma structUpdate : Leaves (.dialect .python) text tokens structUpdate Invocation.IsSeparable := by
  refine (capture_isSeparableType htokens (by decide)).bind fun typePath hpath => ?_
  refine expect.bind fun _ _ => (fieldList htokens (by decide)).bind fun c hc => ?_
  refine expect.bind fun _ _ => expectEnd.bind fun _ _ => pure ?_
  rintro (typePath' | _) c' ⟨⟩
  exact ⟨hpath, hc⟩

lemma anonRecord : Leaves (.dialect .python) text tokens anonRecord Invocation.IsSeparable := by
  refine current.bind fun first _ => (wholeFieldList htokens).bind fun c hc => ?_
  refine expectEnd.bind fun _ _ => ite (fun _ => failAt_bind) fun _ => pure ?_
  rintro (typePath | _) c' ⟨⟩
  exact ⟨trivial, hc⟩

end

/-- What a parser returns from a whole text. -/
lemma exists_of_onText {P : Tokens → α → Prop} {a : α}
    (hp : ∀ tokens, Tokens.ofText host text = .ok tokens → Leaves host text tokens p (P tokens))
    (h : onText p host text = .ok a) :
    ∃ tokens, Tokens.ofText host text = .ok tokens ∧ P tokens a := by
  rw [onText] at h
  rcases htokens : Tokens.ofText host text with error | tokens
  · rw [htokens] at h
    cases h
  rw [htokens] at h
  dsimp only at h
  cases hrun : p.run ⟨host, text, tokens.eof⟩ tokens.body with
  | error error =>
    rw [hrun] at h
    cases h
  | ok result =>
    rw [hrun] at h
    obtain rfl : result.1 = a := Except.ok.inj h
    exact ⟨tokens, rfl, (hp tokens htokens tokens.body List.suffix_rfl result.1 result.2 hrun).1⟩

end Leaves

end Parser

/-- The texts in a record of the python dialect are separable. -/
lemma Invocation.isSeparable_of_ofText {form : RecordForm} {text : String} {c : Composition}
    (h : Invocation.ofText form.entryPoint (.dialect .python) text = .ok (form.invocation c)) :
    form.IsSeparable ∧ c.IsSeparable := by
  have hleaves : ∀ tokens, Tokens.ofText (.dialect .python) text = .ok tokens →
      Parser.Leaves (.dialect .python) text tokens (Parser.invocation form.entryPoint)
        Invocation.IsSeparable := by
    intro tokens htokens
    cases form with
    | update typePath => exact .structUpdate htokens
    | anonymous => exact .anonRecord htokens
  obtain ⟨tokens, -, hseparable⟩ := Parser.Leaves.exists_of_onText hleaves h
  exact hseparable form c rfl

end FieldComposition
