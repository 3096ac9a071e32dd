import FieldComposition.Proofs.EnclosedCommas
import FieldComposition.Proofs.OperandScan

/-!
# Atomic values

A text that closes its brackets is atomic exactly if all that stands outside of them leaves an
operand whole (`isAtomic_iff_areOperands`), where the scan and the lexer agree on its literals and
comments. Outside of brackets there is no operator in it then, strings apart, and no blank but a
carriage return. That still leaves room for a cast (`not_operand_cast`).
-/

namespace FieldComposition

/-- A property of every place in a list, by the first one and those behind it. -/
lemma forall_split_cons {α : Type} {a : α} {as : List α} {P : List α → α → List α → Prop} :
    (∀ before b after, a :: as = before ++ b :: after → P before b after) ↔
      P [] a as ∧ ∀ before b after, as = before ++ b :: after → P (a :: before) b after := by
  constructor
  · intro h
    exact ⟨h [] a as rfl, fun before b after heq => h _ _ _ (congrArg (a :: ·) heq)⟩
  · rintro ⟨hfirst, hothers⟩ before b after heq
    cases before with
    | nil =>
      obtain ⟨rfl, rfl⟩ := List.cons.inj heq
      exact hfirst
    | cons a' before =>
      obtain ⟨rfl, rfl⟩ := List.cons.inj heq
      exact hothers before b after rfl

namespace Stretch

/-- The scan reads each of the stretches as the lexer does, with the others behind it, when `depth`
brackets are open before the stretches. -/
def ArePassedAlike (depth : Nat) (parts : List Stretch) : Prop :=
  ∀ before s after, parts = before ++ s :: after →
    s.IsPassedAlike (Enclosed true depth (kinds before)) (text after)

/-- What stands outside of all brackets leaves an operand whole, when `depth` of them are open
before the stretches. -/
def AreOperands (depth : Nat) (parts : List Stretch) : Prop :=
  ∀ before s after, parts = before ++ s :: after → Enclosed true depth (kinds before) →
    s.IsOperand

variable {depth outer : Nat} {s : Stretch} {parts : List Stretch}

lemma arePassedAlike_of_forall
    (h : ∀ s ∈ parts, ∀ isOutside more, s.IsPassedAlike isOutside more) :
    ArePassedAlike depth parts := by
  rintro before s after rfl
  exact h s (by simp) _ _

lemma arePassedAlike_cons
    (hdepth : ∀ ks, Enclosed true depth (s.kind?.toList ++ ks) ↔ Enclosed true outer ks) :
    ArePassedAlike depth (s :: parts) ↔
      s.IsPassedAlike (depth = 0) (text parts) ∧ ArePassedAlike outer parts := by
  refine forall_split_cons.trans ?_
  simp only [kinds_nil, Enclosed.nil_iff, kinds_cons, hdepth]
  rfl

lemma isOperand_bracket {c : Char} {kind : TokenKind}
    (hc : c ∈ ['(', '[', '{'] ∨ c ∈ [')', ']', '}']) : IsOperand ⟨some kind, [c]⟩ := by
  have hbrackets : ∀ d ∈ ['(', '[', '{', ')', ']', '}'],
      Rust.endsOperand d = false ∧ ¬['.', '.'] <+: [d] := by decide
  obtain ⟨hends, hdots⟩ := hbrackets c (List.mem_append.mpr hc)
  exact .inr ⟨by simpa using hends, hdots⟩

lemma areOperands_nil : AreOperands depth [] := by
  intro before s after h
  simp at h

/-- The first stretch counts where no bracket is open before it. -/
lemma areOperands_cons
    (hdepth : ∀ ks, Enclosed true depth (s.kind?.toList ++ ks) ↔ Enclosed true outer ks) :
    AreOperands depth (s :: parts) ↔ (depth = 0 → s.IsOperand) ∧ AreOperands outer parts := by
  refine forall_split_cons.trans (and_congr (imp_congr_left Enclosed.nil_iff) ?_)
  simp only [kinds_cons, hdepth]
  rfl

end Stretch

namespace Lexes

variable {depth : Nat} {cs : List Char} {parts : List Stretch}

/-- No token starts with a backslash. -/
lemma head?_ne_backslash {host : Host} {more : List Char} (h : Lexes host more cs parts) :
    cs.head? ≠ some '\\' := by
  cases h with
  | nil => exact nofun
  | @cons c taken rest kind? parts hread hrest =>
    intro hc
    obtain rfl : c = '\\' := Option.some.inj hc
    cases kind? with
    | none =>
      rcases Lexeme.gap_cases hread with ⟨hlayout, -⟩ | ⟨hmark, -⟩
      · exact absurd hlayout (by decide)
      · rw [Lexeme.isPrefixOf_commentMark (by decide)] at hmark
        cases hmark
    | some kind =>
      rcases Lexeme.read_kind_cases hread with ⟨-, hquote, -⟩ | ⟨-, hquote, -⟩ | ⟨-, hdigit, -⟩ |
        ⟨hstart, -⟩ | hoperator
      · exact absurd hquote (by decide)
      · exact absurd hquote (by decide)
      · exact absurd hdigit (by decide)
      · rw [Text.isWordStart_eq_false (by decide)] at hstart
        cases hstart
      · rcases Lexeme.operator?_cases hoperator with ⟨spelling, hmem, hbegins, -⟩ | ⟨-, hshort, -⟩
        · have hnone : ∀ e ∈ Lexeme.longOperators, e.1 ≠ [] ∧ '\\' ∉ e.1 := by decide
          obtain ⟨hne, hslash⟩ := hnone _ hmem
          obtain ⟨d, spelling, rfl⟩ := List.exists_cons_of_ne_nil hne
          obtain ⟨rfl, -⟩ := List.cons_prefix_cons.mp hbegins
          exact hslash List.mem_cons_self
        · exact absurd (Lexeme.mem_shortOperators hshort) (by decide)

/-- By induction on the stretches: a bracket changes the depth, and everything else is passed where
it leaves an operand whole. -/
lemma atomicFrom_iff (h : Lexes (.dialect .rust) [] cs parts)
    (halike : Stretch.ArePassedAlike depth parts)
    (hnested : Enclosed true depth (Stretch.kinds parts)) :
    Rust.atomicFrom depth none cs ↔ Stretch.AreOperands depth parts := by
  induction h generalizing depth with
  | nil =>
    obtain rfl := Enclosed.nil_iff.mp hnested
    refine iff_of_true ?_ Stretch.areOperands_nil
    rw [Rust.atomicFrom]
    rfl
  | @cons c taken rest kind? parts hread hrest ih =>
    rw [List.append_nil] at hread
    rw [Stretch.kinds_cons] at hnested
    have hplain (hkind : ∀ kind ∈ kind?, kind.isOpener = false ∧ kind.isCloser = false) :
        Rust.atomicFrom depth none (c :: (taken ++ rest)) ↔
          Stretch.AreOperands depth (⟨kind?, c :: taken⟩ :: parts) := by
      have hdepth (ks : List TokenKind) :
          Enclosed true depth (kind?.toList ++ ks) ↔ Enclosed true depth ks := by
        cases kind? with
        | none => rfl
        | some kind => exact Enclosed.plain_iff (hkind kind rfl).1 (hkind kind rfl).2
      obtain ⟨hfirst, halike⟩ := (Stretch.arePassedAlike_cons hdepth).mp halike
      rw [hrest.text_eq] at hfirst
      have hpassed : Stretch.IsPassed depth rest ⟨kind?, c :: taken⟩ :=
        Stretch.isPassed_of_read hread hfirst Int.natCast_eq_zero.mpr hrest.head?_ne_backslash hkind
      rw [Stretch.areOperands_cons hdepth, ← ih halike ((hdepth _).mp hnested),
        ← Int.natCast_eq_zero (n := depth)]
      exact hpassed
    cases kind? with
    | none => exact hplain (by simp)
    | some kind =>
      obtain ⟨hopener, hcloser⟩ := Lexeme.bracket_of_read hread
      cases hkind : kind.isOpener with
      | true =>
        obtain ⟨hlength, hc⟩ := hopener hkind
        obtain rfl := List.length_eq_zero_iff.mp hlength
        obtain ⟨-, halike⟩ :=
          (Stretch.arePassedAlike_cons fun ks => Enclosed.opener_iff hkind).mp halike
        rw [Stretch.areOperands_cons fun ks => Enclosed.opener_iff hkind,
          ← ih halike ((Enclosed.opener_iff hkind).mp hnested), Int.natCast_add_one,
          and_iff_right fun _ => Stretch.isOperand_bracket (.inl hc)]
        exact iff_of_eq (congrArg (· = true) (Rust.atomicFrom_opener hc))
      | false =>
        cases hkind' : kind.isCloser with
        | true =>
          obtain ⟨hlength, hc⟩ := hcloser hkind'
          obtain rfl := List.length_eq_zero_iff.mp hlength
          cases depth with
          | zero => exact absurd hnested (Enclosed.not_closer hkind')
          | succ depth =>
            obtain ⟨-, halike⟩ :=
              (Stretch.arePassedAlike_cons fun ks => Enclosed.closer_iff hkind').mp halike
            rw [Stretch.areOperands_cons fun ks => Enclosed.closer_iff hkind',
              ← ih halike ((Enclosed.closer_iff hkind').mp hnested),
              and_iff_right fun _ => Stretch.isOperand_bracket (.inr hc)]
            have hscan : Rust.atomicFrom (depth + 1) none (c :: rest) =
                Rust.atomicFrom (depth + 1 - 1) none rest := Rust.atomicFrom_closer hc
            rw [Int.add_sub_cancel] at hscan
            exact iff_of_eq (congrArg (· = true) hscan)
        | false => exact hplain (by simp [hkind, hkind'])

end Lexes

namespace Stretch

/-- Each token of stretches is the text of one of them. -/
lemma exists_of_tokens_eq {offset : Nat} {p : Position} {parts : List Stretch}
    {before after : List Token} {t : Token} (h : tokens offset p parts = before ++ t :: after) :
    ∃ front s behind, parts = front ++ s :: behind ∧ kinds front = before.map Token.kind ∧
      s.kind? = some t.kind ∧ t.value = String.ofList s.chars := by
  induction parts generalizing offset p before with
  | nil => simp [tokens] at h
  | cons s parts ih =>
    rw [tokens] at h
    cases hkind : s.kind? with
    | none =>
      rw [hkind] at h
      obtain ⟨front, s', behind, rfl, hfront, hs'⟩ := ih h
      exact ⟨s :: front, s', behind, rfl, by rw [kinds_cons, hkind, hfront]; rfl, hs'⟩
    | some kind =>
      rw [hkind] at h
      cases before with
      | nil =>
        obtain ⟨rfl, -⟩ := List.cons.inj h
        exact ⟨[], s, parts, rfl, rfl, hkind, rfl⟩
      | cons t' before =>
        obtain ⟨rfl, hrest⟩ := List.cons.inj h
        obtain ⟨front, s', behind, rfl, hfront, hs'⟩ := ih hrest
        exact ⟨s :: front, s', behind, rfl, by rw [kinds_cons, hkind, hfront]; rfl, hs'⟩

end Stretch

namespace Rust

/-- Characters of the operators that bind less tightly than a borrow or a method call. -/
def operatorChars : List Char :=
  ['+', '-', '*', '/', '%', '&', '|', '^', '!', '<', '>', '=', '?']

lemma isAtomic_iff {text : String} :
    isAtomic text ↔ text ≠ "" ∧ atomicFrom 0 none text.toList := by
  rw [isAtomic]
  split
  · rename_i hnil
    simp [String.toList_eq_nil_iff.mp hnil]
  · rename_i c rest hcons
    have hne : text ≠ "" := by
      rintro rfl
      cases hcons
    have hunary : ∀ d ∈ unaryOperators, isPlain d ∧ endsOperand d := by decide
    rw [hcons, Bool.and_eq_true, Bool.not_eq_true', List.contains_eq_mem,
      decide_eq_false_iff_not]
    refine ⟨fun h => ⟨hne, h.2⟩, fun h => ⟨fun hc => ?_, h.2⟩⟩
    have hoperand := ((atomicFrom_cons (hunary c hc).1).mp h.2).1 rfl
    rw [(hunary c hc).2] at hoperand
    cases hoperand.1

end Rust

namespace Stretch

variable {s : Stretch}

lemma IsOperand.not_operator (h : s.IsOperand) (hkind : s.kind? ≠ some .string) :
    (∀ c ∈ s.chars, c ∉ Rust.operatorChars) ∧ s.chars ≠ ['.', '.'] := by
  obtain ⟨hends, hdots⟩ := h.resolve_left hkind
  have hoperators : ∀ c ∈ Rust.operatorChars, Rust.endsOperand c := by decide
  refine ⟨fun c hc hoperator => ?_, fun hrange => hdots (hrange ▸ List.prefix_rfl)⟩
  have hnone := hends c hc
  rw [hoperators c hoperator] at hnone
  cases hnone

/-- Of the blanks and comments only the carriage return leaves an operand whole. -/
lemma IsOperand.eq_return (h : s.IsOperand) (hgap : s.kind? = none) {more : List Char}
    (hread : s.IsReadBefore (.dialect .rust) more) : s.chars = ['\r'] := by
  obtain ⟨c, taken, hchars, hread⟩ := hread
  obtain ⟨hends, -⟩ := h.resolve_left (by simp [hgap])
  rw [hchars] at hends ⊢
  have hc := hends c List.mem_cons_self
  rw [hgap] at hread
  rcases Lexeme.gap_cases hread with ⟨hlayout, hlength⟩ | ⟨hcomment, -⟩
  · obtain rfl := List.length_eq_zero_iff.mp hlength
    simp only [Lexeme.isLayout, Bool.or_eq_true, beq_iff_eq] at hlayout
    rcases hlayout with ((rfl | rfl) | rfl) | rfl
    · cases hc
    · cases hc
    · rfl
    · cases hc
  · obtain ⟨rfl, -⟩ := List.cons_prefix_cons.mp (List.isPrefixOf_iff_prefix.mp hcomment)
    cases hc

end Stretch

/-- A text that closes its brackets is atomic exactly if all that stands outside of them leaves an
operand whole. No operator and no blank stands there then, but for strings and carriage returns. -/
theorem isAtomic_iff_areOperands {text : String} {tokens : Tokens}
    (h : Tokens.ofText (.dialect .rust) text = .ok tokens)
    (hnested : Enclosed true 0 (tokens.body.map Token.kind)) :
    (∃ parts, Lexes (.dialect .rust) [] text.toList parts) ∧
      ∀ parts, Lexes (.dialect .rust) [] text.toList parts →
        tokens.body = Stretch.tokens 0 .start parts ∧
        (Stretch.ArePassedAlike 0 parts →
          (Rust.isAtomic text ↔ text ≠ "" ∧ Stretch.AreOperands 0 parts) ∧
          (Rust.isAtomic text →
            (∀ before t after, tokens.body = before ++ t :: after →
              Enclosed true 0 (before.map Token.kind) → t.kind ≠ .string →
                (∀ c ∈ t.value.toList, c ∉ Rust.operatorChars) ∧ t.value ≠ "..") ∧
            ∀ before s after, parts = before ++ s :: after →
              Enclosed true 0 (Stretch.kinds before) → s.kind? = none → s.chars = ['\r'])) := by
  obtain ⟨all, hall, -⟩ := Lexes.exists_of_scan h
  refine ⟨⟨all, hall⟩, fun parts hparts => ?_⟩
  have hbody : tokens.body = Stretch.tokens 0 .start parts := by
    obtain ⟨tokens', h', hbody⟩ := Tokens.exists_ofText_of_lexes hparts
    rw [h] at h'
    rw [Except.ok.inj h', hbody]
  refine ⟨hbody, fun halike => ?_⟩
  rw [hbody, Stretch.map_kind_tokens] at hnested
  have hatomic : Rust.isAtomic text ↔ text ≠ "" ∧ Stretch.AreOperands 0 parts := by
    rw [Rust.isAtomic_iff, ← hparts.atomicFrom_iff halike hnested]
    rfl
  refine ⟨hatomic, fun hholds => ⟨?_, ?_⟩⟩
  · intro before t after hsplit hbefore hkind
    rw [hbody] at hsplit
    obtain ⟨front, s, behind, hsplit, hfront, hs, hvalue⟩ := Stretch.exists_of_tokens_eq hsplit
    have hoperand := (hatomic.mp hholds).2 front s behind hsplit (hfront ▸ hbefore)
    have hspared := hoperand.not_operator (hs ▸ fun hstring => hkind (Option.some.inj hstring))
    rw [hvalue, String.toList_ofList]
    exact ⟨hspared.1, fun hrange => hspared.2 (String.ofList_injective hrange)⟩
  · intro before s after hsplit hbefore hgap
    have hoperand := (hatomic.mp hholds).2 before s after hsplit hbefore
    obtain ⟨more, hread⟩ := hparts.isReadBefore (s := s) (by rw [hsplit]; simp)
    exact hoperand.eq_return hgap hread

/-- A minus in a string or in the brackets of a call is no operator of the text. -/
theorem isAtomic_iff_areOperands_call :
    let text := "\"-\".f(-1)"
    ∃ tokens, Tokens.ofText (.dialect .rust) text = .ok tokens ∧
      Enclosed true 0 (tokens.body.map Token.kind) ∧ Rust.isAtomic text ∧
      ∀ before t after, tokens.body = before ++ t :: after →
        Enclosed true 0 (before.map Token.kind) → t.kind ≠ .string →
          (∀ c ∈ t.value.toList, c ∉ Rust.operatorChars) ∧ t.value ≠ ".." := by
  intro text
  let parts : List Stretch := [⟨some .string, ['"', '-', '"']⟩, ⟨some .dot, ['.']⟩,
    ⟨some .ident, ['f']⟩, ⟨some .openParen, ['(']⟩, ⟨some .op, ['-']⟩, ⟨some .number, ['1']⟩,
    ⟨some .closeParen, [')']⟩]
  have htext : text.toList = '"' :: (['-', '"'] ++ '.' :: ([] ++ 'f' :: ([] ++ '(' :: ([] ++ '-' ::
      ([] ++ '1' :: ([] ++ ')' :: ([] ++ []))))))) := by decide
  have hparts : Lexes (.dialect .rust) [] text.toList parts := by
    rw [htext]
    exact .cons (by decide +kernel) (.cons (by decide +kernel) (.cons (by decide +kernel)
      (.cons (by decide +kernel) (.cons (by decide +kernel) (.cons (by decide +kernel)
        (.cons (by decide +kernel) .nil))))))
  have halike : Stretch.ArePassedAlike 0 parts := by
    refine Stretch.arePassedAlike_of_forall fun s hs isOutside more => ?_
    simp only [parts, List.mem_cons, List.not_mem_nil, or_false] at hs
    rcases hs with rfl | rfl | rfl | rfl | rfl | rfl | rfl
    · exact .text (by decide)
    all_goals exact .token (by decide)
  have hatomic : Rust.isAtomic text := by decide +kernel
  obtain ⟨tokens, h, hbody⟩ := Tokens.exists_ofText_of_lexes hparts
  have hnested : Enclosed true 0 (tokens.body.map Token.kind) := by
    rw [hbody, Stretch.map_kind_tokens]
    have hinner : Enclosed true 1 [.op, .number, .closeParen] :=
      .plain rfl rfl nofun (.plain rfl rfl nofun (.closer rfl .nil))
    exact .plain rfl rfl nofun (.plain rfl rfl nofun (.plain rfl rfl nofun (.opener rfl hinner)))
  obtain ⟨-, hspared⟩ := isAtomic_iff_areOperands h hnested
  exact ⟨tokens, h, hnested, hatomic, (((hspared parts hparts).2 halike).2 hatomic).1⟩

/-- A cast needs no blank between brackets. -/
theorem not_operand_cast :
    let text := "(x)as(u8)"
    let value : List Token := [⟨.openParen, "(", 0, 1, ⟨1, 1⟩⟩, ⟨.ident, "x", 1, 2, ⟨1, 2⟩⟩,
      ⟨.closeParen, ")", 2, 3, ⟨1, 3⟩⟩]
    let cast : Token := ⟨.ident, "as", 3, 5, ⟨1, 4⟩⟩
    let type : List Token := [⟨.openParen, "(", 5, 6, ⟨1, 6⟩⟩, ⟨.ident, "u8", 6, 8, ⟨1, 7⟩⟩,
      ⟨.closeParen, ")", 8, 9, ⟨1, 9⟩⟩]
    Tokens.ofText (.dialect .rust) text =
        .ok ⟨value ++ cast :: type, Tokens.endOf text.toList⟩ ∧
      Enclosed true 0 ((value ++ cast :: type).map Token.kind) ∧
      Enclosed true 0 (value.map Token.kind) ∧ Rust.isAtomic text := by
  intro text value cast type
  have hbrackets : Enclosed true 0 [.openParen, .ident, .closeParen] :=
    .opener rfl (.plain rfl rfl nofun (.closer rfl .nil))
  have hcast : Enclosed true 0 [.ident, .openParen, .ident, .closeParen] :=
    .plain rfl rfl nofun hbrackets
  exact ⟨by decide +kernel, hbrackets.append hcast, hbrackets, by decide +kernel⟩

/-- The second quote of an escaped one is taken for the first one of another character. -/
example : Rust.isAtomic "'\\''<'a'" := by decide +kernel

/-- A bracket in a comment is taken for one that closes the call. -/
example : Rust.isAtomic "f(//)\n)" = false := by decide +kernel

end FieldComposition
