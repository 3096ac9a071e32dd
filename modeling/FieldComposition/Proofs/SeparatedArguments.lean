import FieldComposition.Proofs.SeparableCode

/-!
# The arguments of an emitted call

A record of the python dialect is emitted as a call with its arguments on lines of their own. Read
back, such a call is what it was written as: its tokens are those of the callee and one pair of
parentheses up to the end of the text, between which the commas separate exactly these arguments
(`Python.exists_callTokens`). So no value reaches into the one next to it
(`expand_separates_arguments`).
-/

namespace FieldComposition

/-- An argument on a line of its own, with the line end and the margin before it and the comma
behind it. -/
def Text.argumentLine (margin arg : List Char) : List Char :=
  '\n' :: (marginBefore margin arg ++ (hang margin arg ++ [',']))

/-- Arguments on lines of their own, and the line end behind them if there are any. -/
def Text.argumentLines (margin : List Char) (args : List (List Char)) : List Char :=
  args.flatMap (argumentLine margin) ++ if args = [] then [] else ['\n']

/-- A text with its lines behind the first one `n` blanks deeper. -/
def Text.hung (n : Nat) (s : String) : String :=
  String.ofList (hang (List.replicate n ' ') s.toList)

namespace Python

/-- The stretches of an argument on a line of its own: the blanks before it and its text. -/
structure ArgumentLine where
  gaps : List Stretch
  parts : List Stretch

namespace ArgumentLine

/-- The stretches of the line, which ends in a comma. -/
def stretches (l : ArgumentLine) : List Stretch :=
  l.gaps ++ (l.parts ++ [⟨some .comma, [',']⟩])

/-- The commas of the argument stand in its brackets, which are closed in it. -/
structure IsSeparated (l : ArgumentLine) : Prop where
  kinds_gaps : Stretch.kinds l.gaps = []
  isSolid : Stretch.IsSolid l.parts
  enclosed : Enclosed false 0 (Stretch.kinds l.parts)

end ArgumentLine

/-- A text is read as one call: behind the text of the callee a pair of parentheses reaches to the
end of the text, and the commas outside of all brackets between them separate the arguments. -/
structure CallTokens (text callee : String) (args : List String) (tokens : Tokens)
    (front inner : List Token) (opener closer : Token) : Prop where
  ofText_eq : Tokens.ofText (.dialect .python) text = .ok tokens
  body_eq : tokens.body = front ++ opener :: (inner ++ [closer])
  opener_kind : opener.kind = .openParen
  closer_kind : closer.kind = .closeParen
  callee_eq : Text.slice text 0 opener.start = callee
  matchingClose_eq : Token.matchingClose? (opener :: (inner ++ [closer])) = some (inner.length + 1)
  closer_stop : closer.stop = text.length
  arguments_eq : (Token.arguments inner).map (Token.textOf text) = args

section Lines

variable {n : Nat} {arg cs more : List Char} {args : List (List Char)} {parts gaps : List Stretch}
  {lines : List ArgumentLine} {text : String} {offset : Nat} {p : Position} {after : List Char}

/-- Indented arguments stand on lines of their own, by induction on the arguments. -/
lemma indentLines_joined {margin : List Char} {tab : String} {arg : Code} {args : List Code}
    (hargs : ∀ a ∈ arg :: args, Text.EndsInInk (a.render tab).toList) :
    '\n' :: Text.indentLines margin
        ((Code.joined "\n" ((arg :: args).map (· ++ .text ","))).render tab).toList =
      ((arg :: args).map fun a => (a.render tab).toList).flatMap (Text.argumentLine margin) := by
  have hcomma : ∀ c ∈ [','], Text.isLineEnd c = false := by decide
  induction args generalizing arg with
  | nil =>
    have hink := hargs arg List.mem_cons_self
    have htext : ((Code.joined "\n" ([arg].map (· ++ .text ","))).render tab).toList =
        (arg.render tab).toList ++ [','] := by simp [Code.joined]
    rw [htext, Text.indentLines_eq, Text.marginBefore, Text.firstLineIsBlank_append hink,
      Text.hang_append hink, Text.hang_eq_self hcomma]
    simp [Text.argumentLine, Text.marginBefore]
  | cons next args ih =>
    have hink := hargs arg List.mem_cons_self
    have hrest := ih fun a ha => hargs a (List.mem_cons_of_mem _ ha)
    let rest := ((Code.joined "\n" ((next :: args).map (· ++ .text ","))).render tab).toList
    have htext :
        ((Code.joined "\n" ((arg :: next :: args).map (· ++ .text ","))).render tab).toList =
          (arg.render tab).toList ++ ([','] ++ '\n' :: rest) := by simp [Code.joined, rest]
    have hlines : Text.hang margin ('\n' :: rest) = '\n' :: Text.indentLines margin rest := by
      rw [Text.hang, Text.indentLines_eq]
      rfl
    rw [htext, Text.indentLines_eq, Text.marginBefore, Text.firstLineIsBlank_append hink,
      Text.hang_append hink, Text.hang_margin_append hcomma, hlines, hrest]
    simp [Text.argumentLine, Text.marginBefore]

/-- The text of a call. -/
lemma toList_render_call {callee : Code} {args : List Code} {tab : String}
    (hargs : ∀ arg ∈ args, Text.EndsInInk (arg.render tab).toList) :
    ((call callee args).render tab).toList = (callee.render tab).toList ++
      '(' :: (Text.argumentLines tab.toList (args.map fun arg => (arg.render tab).toList) ++
        [')']) := by
  cases args with
  | nil => simp [call, Text.argumentLines]
  | cons arg args =>
    have hlines : '\n' :: Text.indentLines tab.toList _ = _ := indentLines_joined hargs
    rw [call, if_neg (by simp), Code.toList_render_enclosed, Code.toList_render_append,
      List.append_assoc, ← List.cons_append, hlines]
    simp [Text.argumentLines]

/-- A line end and a margin are blanks. -/
lemma exists_lexes_margin (h : Lexes (.dialect .python) more cs parts) :
    ∃ gaps, Stretch.kinds gaps = [] ∧ Lexes (.dialect .python) more
      ('\n' :: (Text.marginBefore (List.replicate n ' ') arg ++ cs)) (gaps ++ parts) := by
  have hspaces : ∃ gaps, Stretch.kinds gaps = [] ∧ Lexes (.dialect .python) more
      (Text.marginBefore (List.replicate n ' ') arg ++ cs) (gaps ++ parts) := by
    by_cases hblank : Text.firstLineIsBlank arg
    · rw [Text.marginBefore_of_blank hblank]
      exact ⟨[], rfl, h⟩
    · rw [Text.marginBefore_of_not_blank hblank]
      exact h.spaces_append n
  obtain ⟨gaps, hgaps, hlexes⟩ := hspaces
  exact ⟨⟨none, ['\n']⟩ :: gaps, hgaps, hlexes.layout_cons rfl⟩

/-- Separable arguments on lines of their own are read as such, before any other text. -/
lemma exists_argumentLines (hargs : ∀ arg ∈ args, Separable false arg)
    (h : Lexes (.dialect .python) more cs parts) :
    ∃ lines : List ArgumentLine, (∀ l ∈ lines, l.IsSeparated) ∧
      lines.map (fun l => Stretch.text l.parts) =
        args.map (Text.hang (List.replicate n ' ')) ∧
      Lexes (.dialect .python) more
        (args.flatMap (Text.argumentLine (List.replicate n ' ')) ++ cs)
        (lines.flatMap ArgumentLine.stretches ++ parts) := by
  induction args with
  | nil => exact ⟨[], by simp, rfl, h⟩
  | cons arg args ih =>
    obtain ⟨lines, hlines, htexts, hrest⟩ := ih fun a ha => hargs a (List.mem_cons_of_mem _ ha)
    let rest := args.flatMap (Text.argumentLine (List.replicate n ' ')) ++ cs
    obtain ⟨argument, hargument, hsolid, hkinds⟩ :=
      (hargs arg List.mem_cons_self).exists_lexes n ([','] ++ rest ++ more)
        (by simp [Lexeme.IsDelimited])
    have hcomma : Lexes (.dialect .python) (rest ++ more) [','] [⟨some .comma, [',']⟩] :=
      Lexes.mark (by decide)
    obtain ⟨gaps, hgaps, hlexes⟩ : ∃ gaps, Stretch.kinds gaps = [] ∧ _ :=
      exists_lexes_margin (hargument.append (hcomma.append hrest))
    refine ⟨⟨gaps, argument⟩ :: lines, ?_, ?_, ?_⟩
    · simpa using ⟨⟨hgaps, hsolid, hkinds⟩, hlines⟩
    · rw [List.map_cons, List.map_cons, htexts, hargument.text_eq]
    · have htext : (arg :: args).flatMap (Text.argumentLine (List.replicate n ' ')) ++ cs =
          '\n' :: (Text.marginBefore (List.replicate n ' ') arg ++
            (Text.hang (List.replicate n ' ') arg ++ ([','] ++ rest))) := by
        simp [Text.argumentLine, rest]
      have hparts : (⟨gaps, argument⟩ :: lines).flatMap ArgumentLine.stretches ++ parts =
          gaps ++ (argument ++ ([⟨some .comma, [',']⟩] ++
            (lines.flatMap ArgumentLine.stretches ++ parts))) := by
        simp [ArgumentLine.stretches]
      rw [htext, hparts]
      exact hlexes

/-- The tokens of the lines of arguments close their brackets. -/
lemma enclosed_argumentLines (hlines : ∀ l ∈ lines, l.IsSeparated) :
    Enclosed true 0 (Stretch.kinds (lines.flatMap ArgumentLine.stretches)) := by
  induction lines with
  | nil => exact .nil
  | cons l lines ih =>
    have hl := hlines l List.mem_cons_self
    have hrest := ih fun l' hl' => hlines l' (List.mem_cons_of_mem _ hl')
    have hcomma : Enclosed true 0
        (.comma :: Stretch.kinds (lines.flatMap ArgumentLine.stretches)) :=
      .plain rfl rfl (fun _ _ => rfl) hrest
    have hkinds : Stretch.kinds ((l :: lines).flatMap ArgumentLine.stretches) =
        Stretch.kinds l.parts ++
          .comma :: Stretch.kinds (lines.flatMap ArgumentLine.stretches) := by
      simp [ArgumentLine.stretches, hl.kinds_gaps, Stretch.kinds_cons]
    rw [hkinds]
    exact hl.enclosed.weaken.append hcomma

/-- The commas outside of all brackets are those at the ends of the lines. -/
lemma exists_splitAtCommas (hlines : ∀ l ∈ lines, l.IsSeparated) (hgaps : Stretch.kinds gaps = [])
    (htext : text.toList.drop offset =
      Stretch.text (lines.flatMap ArgumentLine.stretches ++ gaps) ++ after) :
    ∃ parts : List (List Token),
      Token.splitAtCommas 0
        (Stretch.tokens offset p (lines.flatMap ArgumentLine.stretches ++ gaps)) = parts ++ [[]] ∧
      parts.map (Token.textOf text) = lines.map fun l => String.ofList (Stretch.text l.parts) := by
  induction lines generalizing offset p with
  | nil =>
    refine ⟨[], ?_, rfl⟩
    rw [List.flatMap_nil, List.nil_append, Stretch.tokens_of_gaps hgaps]
    rfl
  | cons l lines ih =>
    have hl := hlines l List.mem_cons_self
    let start := offset + (Stretch.text l.gaps).length
    let q := p.advance (Stretch.text l.gaps)
    let part := Stretch.tokens start q l.parts
    let rest := lines.flatMap ArgumentLine.stretches ++ gaps
    have hstretches : (l :: lines).flatMap ArgumentLine.stretches ++ gaps =
        l.gaps ++ (l.parts ++ (⟨some .comma, [',']⟩ :: rest)) := by
      simp [ArgumentLine.stretches, rest]
    rw [hstretches] at htext ⊢
    simp only [Stretch.text_append, List.append_assoc] at htext
    have hstart : text.toList.drop start = Stretch.text l.parts ++
        ([','] ++ (Stretch.text rest ++ after)) := by
      rw [← List.drop_drop, htext, List.drop_left]
      rfl
    let stop := start + (Stretch.text l.parts).length
    have hbehind : text.toList.drop (stop + [','].length) = Stretch.text rest ++ after := by
      rw [← List.drop_drop, ← List.drop_drop, hstart, List.drop_left, List.drop_left]
    obtain ⟨parts, hsplit, htexts⟩ := ih (fun l' hl' => hlines l' (List.mem_cons_of_mem _ hl'))
      (p := (q.advance (Stretch.text l.parts)).advance [',']) hbehind
    let comma : Token :=
      ⟨.comma, String.ofList [','], stop, stop + [','].length, q.advance (Stretch.text l.parts)⟩
    let behind := Stretch.tokens (stop + [','].length)
      ((q.advance (Stretch.text l.parts)).advance [',']) rest
    have htokens : Stretch.tokens offset p (l.gaps ++ (l.parts ++ (⟨some .comma, [',']⟩ :: rest))) =
        part ++ comma :: behind := by
      rw [Stretch.tokens_append, Stretch.tokens_of_gaps hl.kinds_gaps, List.nil_append,
        Stretch.tokens_append]
      rfl
    have hpart : Enclosed false 0 (part.map Token.kind) := by
      rw [Stretch.map_kind_tokens]
      exact hl.enclosed
    obtain ⟨first, others, hfirst, happend⟩ : ∃ first others,
        Token.splitAtCommas 0 (comma :: behind) = first :: others ∧
          Token.splitAtCommas 0 (part ++ comma :: behind) = (part ++ first) :: others :=
      Token.splitAtCommas_append hpart
    rw [Token.splitAtCommas_comma rfl, hsplit] at hfirst
    obtain ⟨rfl, rfl⟩ := List.cons.inj hfirst
    refine ⟨part :: parts, ?_, ?_⟩
    · rw [htokens, happend, List.append_nil]
      rfl
    · obtain ⟨t, u, ht, hu, htstart, hustop⟩ : ∃ t u, part.head? = some t ∧
          part.getLast? = some u ∧ t.start = start ∧
            u.stop = start + (Stretch.text l.parts).length := hl.isSolid.exists_ends
      rw [List.map_cons, List.map_cons, htexts, Token.textOf_eq ht hu, Text.slice, htstart, hustop,
        Nat.add_sub_cancel_left, hstart, List.take_left]

/-- The stretches of a call: the callee and the lines of arguments in parentheses. -/
lemma exists_callTokens_of_lexes {head : List Stretch} (hlines : ∀ l ∈ lines, l.IsSeparated)
    (hgaps : Stretch.kinds gaps = [])
    (hread : Lexes (.dialect .python) [] text.toList (head ++ ([⟨some .openParen, ['(']⟩] ++
      (lines.flatMap ArgumentLine.stretches ++ gaps ++ [⟨some .closeParen, [')']⟩])))) :
    ∃ tokens front inner opener closer, CallTokens text (String.ofList (Stretch.text head))
      (lines.map fun l => String.ofList (Stretch.text l.parts))
      tokens front inner opener closer := by
  let body := lines.flatMap ArgumentLine.stretches ++ gaps
  have hwhole : text.toList =
      Stretch.text head ++ (['('] ++ (Stretch.text body ++ [')'])) := by
    rw [← hread.text_eq, Stretch.text_append, Stretch.text_append, Stretch.text_append]
    rfl
  obtain ⟨tokens, htokens, hbody⟩ := Tokens.exists_ofText_of_lexes hread
  let start := (Stretch.text head).length
  let stop := start + 1 + (Stretch.text body).length
  let p := Position.start.advance (Stretch.text head)
  let inner := Stretch.tokens (start + 1) (p.advance ['(']) body
  have hdrop : text.toList.drop (start + 1) = Stretch.text body ++ [')'] := by
    rw [← List.drop_drop, hwhole, List.drop_left]
    rfl
  obtain ⟨parts, hsplit, htexts⟩ : ∃ parts : List (List Token),
      Token.splitAtCommas 0 inner = parts ++ [[]] ∧ parts.map (Token.textOf text) = _ :=
    exists_splitAtCommas hlines hgaps hdrop
  refine ⟨tokens, Stretch.tokens 0 .start head, inner,
    ⟨.openParen, String.ofList ['('], start, start + 1, p⟩,
    ⟨.closeParen, String.ofList [')'], stop, stop + 1,
      (p.advance ['(']).advance (Stretch.text body)⟩, htokens, ?_, rfl, rfl, ?_, ?_, ?_, ?_⟩
  · rw [hbody, Stretch.tokens_append, Nat.zero_add, Stretch.tokens_append, Stretch.tokens_append]
    rfl
  · rw [Text.slice, hwhole, List.drop_zero, Nat.sub_zero, List.take_left]
  · have hinner : Enclosed true 0 (inner.map Token.kind) := by
      rw [Stretch.map_kind_tokens, Stretch.kinds_append, hgaps, List.append_nil]
      exact enclosed_argumentLines hlines
    exact Token.matchingClose?_enclosed rfl hinner
  · rw [← String.length_toList, hwhole]
    simp only [List.length_append, List.length_singleton]
    omega
  · rw [Token.arguments, hsplit, ← htexts]
    simp

/-- A text that is written as a call of separable texts is read as that call. -/
lemma exists_callTokens_of_chars {callee : List Char} (hcallee : Separable false callee)
    (hargs : ∀ arg ∈ args, Separable false arg)
    (htext : text.toList =
      callee ++ '(' :: (Text.argumentLines (List.replicate n ' ') args ++ [')'])) :
    ∃ tokens front inner opener closer, CallTokens text (String.ofList callee)
      (args.map fun arg => String.ofList (Text.hang (List.replicate n ' ') arg))
      tokens front inner opener closer := by
  let closing : List Char := if args = [] then [] else ['\n']
  let written := args.flatMap (Text.argumentLine (List.replicate n ' ')) ++ (closing ++ [')'])
  have hclose : Lexes (.dialect .python) [] [')'] [⟨some .closeParen, [')']⟩] :=
    Lexes.mark (by decide)
  obtain ⟨gaps, hgaps, hend⟩ : ∃ gaps, Stretch.kinds gaps = [] ∧ Lexes (.dialect .python) []
      (closing ++ [')']) (gaps ++ [⟨some .closeParen, [')']⟩]) := by
    by_cases hnil : args = []
    · simp only [closing, if_pos hnil]
      exact ⟨[], rfl, hclose⟩
    · simp only [closing, if_neg hnil]
      exact ⟨[⟨none, ['\n']⟩], rfl, hclose.layout_cons rfl⟩
  obtain ⟨lines, hlines, htexts, hinner⟩ : ∃ lines : List ArgumentLine, _ ∧ _ ∧
      Lexes (.dialect .python) [] written _ := exists_argumentLines (n := n) hargs hend
  have hopen : Lexes (.dialect .python) (written ++ []) ['('] [⟨some .openParen, ['(']⟩] :=
    Lexes.mark (by decide)
  obtain ⟨head, hhead, -, -⟩ := hcallee.exists_lexes 0 (['('] ++ written ++ [])
    (by simp [Lexeme.IsDelimited])
  have hcalleeText : Text.hang (List.replicate 0 ' ') callee = callee := Text.hang_nil
  have hread : Lexes (.dialect .python) [] text.toList (head ++ ([⟨some .openParen, ['(']⟩] ++
      (lines.flatMap ArgumentLine.stretches ++ gaps ++ [⟨some .closeParen, [')']⟩]))) := by
    have hwritten : text.toList =
        Text.hang (List.replicate 0 ' ') callee ++ (['('] ++ written) := by
      rw [hcalleeText, htext, Text.argumentLines, List.append_assoc]
      rfl
    rw [hwritten, List.append_assoc (List.flatMap _ _)]
    exact hhead.append (hopen.append hinner)
  have hargTexts : lines.map (fun l => String.ofList (Stretch.text l.parts)) =
      args.map fun arg => String.ofList (Text.hang (List.replicate n ' ') arg) := by
    have hmapped := congrArg (List.map String.ofList) htexts
    rwa [List.map_map, List.map_map] at hmapped
  have hheadText : Stretch.text head = callee := hhead.text_eq.trans hcalleeText
  rw [← hargTexts, ← hheadText]
  exact exists_callTokens_of_lexes hlines hgaps hread

/-- A call of separable texts is read as that call. -/
lemma exists_callTokens {callee : Code} {args : List Code} {tab : String}
    (htab : tab.toList = List.replicate n ' ')
    (hcallee : Separable false (callee.render tab).toList)
    (hargs : ∀ arg ∈ args, Separable false (arg.render tab).toList) :
    ∃ tokens front inner opener closer, CallTokens ((call callee args).render tab)
      (callee.render tab) (args.map fun arg => Text.hung n (arg.render tab))
      tokens front inner opener closer := by
  have htext : ((call callee args).render tab).toList = _ :=
    toList_render_call fun arg harg => (hargs arg harg).endsInInk
  rw [htab] at htext
  obtain ⟨tokens, front, inner, opener, closer, hcall⟩ :=
    exists_callTokens_of_chars hcallee (by simpa using hargs) htext
  refine ⟨tokens, front, inner, opener, closer, ?_⟩
  rw [String.ofList_toList, List.map_map] at hcall
  exact hcall

end Lines

end Python

namespace RecordForm

/-- The type that the caller gives. -/
def typePath? : RecordForm → Option Expression
  | update typePath => some typePath
  | anonymous => none

/-- What is called for a record: its type, or the function that completes it from a base. -/
def callee (settings : Settings) (base? : Option Expression) (form : RecordForm) : String :=
  if base?.isSome then settings.runtimeAlias ++ ".struct_update" else form.typeName settings

/-- The arguments before the named ones: the type and the base, if there is one. -/
def positional (settings : Settings) (base? : Option Expression) (form : RecordForm) :
    List String :=
  base?.toList.flatMap fun base => [form.typeName settings, base.text]

end RecordForm

/-- The python code of a record is one call. -/
lemma RecordCode.expression_eq {settings : Settings} {p : Plan} {form : RecordForm} {draft : Draft}
    (h : RecordCode settings p .python form draft)
    (hbase : form.takesBase .python = false → p.base = none) :
    ∃ positional : List Code,
      (∀ tab, positional.map (Code.render tab) = form.positional settings p.base) ∧
      draft.expression = some (Python.call (.text (form.callee settings p.base))
        (positional ++ (Python.keywords p (form.typeName settings)).map
          (Python.Computation.keyword settings.runtimeAlias))) := by
  cases h with
  | construct form imports definition hnone hdefinition =>
    have hnone : p.base = none := by
      cases htakes : form.takesBase .python with
      | true => exact hnone htakes
      | false => exact hbase htakes
    refine ⟨[], fun tab => ?_, ?_⟩
    · rw [RecordForm.positional, hnone]
      rfl
    · rw [RecordForm.callee, hnone]
      rfl
  | @complete typePath base imports hsome =>
    refine ⟨[.text typePath.text, .host base.text], fun tab => ?_, ?_⟩
    · rw [RecordForm.positional, hsome]
      rfl
    · rw [RecordForm.callee, hsome]
      rfl

namespace Composition.IsSeparable

variable {c : Composition} {settings : Settings} {form : RecordForm}

lemma isWord_target (h : c.IsSeparable) {claim : Claim} (hclaim : claim ∈ c.allClaims) :
    Text.IsWord claim.target.toList := by
  have hentry := h.isSeparable_entry hclaim
  rw [Claim.target, Entry.target]
  cases hrename : claim.entry.rename with
  | none => exact hentry.isWord_name
  | some rename =>
    dsimp only
    split
    · exact hentry.isWord_name
    · exact hentry.isWord_rename rename hrename

/-- The arguments before the named ones. -/
lemma separable_positional (h : c.IsSeparable)
    (hturbofish : ∀ e ∈ c.expressions, ¬Text.HasTurbofish e.text)
    (htype : Separable false (form.typeName settings).toList) {arg : String}
    (harg : arg ∈ form.positional settings c.base) : Separable false arg.toList := by
  obtain ⟨base, hmember, hpair⟩ := List.mem_flatMap.mp harg
  rcases List.mem_pair.mp hpair with rfl | rfl
  · exact htype
  · exact h.isSeparable_base base (Option.mem_toList.mp hmember)
      (hturbofish base (List.mem_append_right _ hmember))

/-- The named argument of a field. -/
lemma separable_keyword (h : c.IsSeparable) (hnames : settings.HasWordNames)
    (hturbofish : ∀ e ∈ c.expressions, ¬Text.HasTurbofish e.text)
    (htype : Separable false (form.typeName settings).toList) {k : Python.Keyword} (tab : String)
    (hk : k ∈ Python.keywords (c.table.plan settings.bindingStem) (form.typeName settings)) :
    Text.IsWord k.name.toList ∧
      Separable false ((k.value.code settings.runtimeAlias).render tab).toList := by
  obtain ⟨i, hi, rfl⟩ := List.mem_map.mp hk
  obtain ⟨claim, hclaim, rfl⟩ := List.mem_map.mp hi
  refine ⟨h.isWord_target hclaim, ?_⟩
  exact Python.Term.separable_ofModifier hnames.runtimeAlias
    (h.isSeparable_entry hclaim).separable_path
    (h.separable_operand hnames hturbofish hclaim tab) htype

end Composition.IsSeparable

/-- What a named argument begins with. -/
lemma Python.begins_hung_keyword {k : Python.Keyword} (hname : Text.IsWord k.name.toList)
    (runtimeName tab : String) (n : Nat) :
    (k.name ++ "=").toList <+:
      (Text.hung n ((Computation.keyword runtimeName k).render tab)).toList := by
  have hline : ∀ c ∈ (k.name ++ "=").toList, Text.isLineEnd c = false := by
    intro c hc
    rw [String.toList_append] at hc
    rcases List.mem_append.mp hc with hc | hc
    · exact Text.isLineEnd_eq_false_of_ink (hname.isBlank_eq_false c hc)
    · rw [List.mem_singleton.mp hc]
      decide
  rw [Text.hung, String.toList_ofList, Computation.keyword, Code.toList_render_append,
    Code.toList_render_text, Text.hang_margin_append hline]
  exact List.prefix_append _ _

/-- The call that a record is written as is read as that call. -/
lemma RecordForm.exists_callTokens {form : RecordForm} {c : Composition} {settings : Settings}
    (hnames : settings.HasWordNames) (hform : form.IsSeparable) (hc : c.IsSeparable)
    (hbase : form.takesBase .python = false → c.base = none)
    (hturbofish : ∀ e ∈ c.expressions, ¬Text.HasTurbofish e.text)
    (hcomma : ∀ typePath ∈ form.typePath?, ¬Text.HasOuterComma typePath.text) :
    ∃ expression named tokens front inner opener closer,
      ((⟨.python, form.entryPoint⟩ : Backend).draft settings (form.invocation c)
        c.table).expression.map (Code.render settings.tab) = some expression ∧
      Python.CallTokens expression (form.callee settings c.base)
        ((form.positional settings c.base).map (Text.hung settings.indent) ++ named)
        tokens front inner opener closer ∧
      List.Forall₂ (fun target arg => (target ++ "=").toList <+: arg.toList) c.table.targets
        named := by
  let p := c.table.plan settings.bindingStem
  have htab : settings.tab.toList = List.replicate settings.indent ' ' := Text.toList_pushn _ _
  have htype : Separable false (form.typeName settings).toList := by
    cases form with
    | update typePath => exact hform (hcomma typePath rfl)
    | anonymous => exact .word hnames.anonTypeName
  have hcallee : Separable false (form.callee settings c.base).toList := by
    rw [callee]
    split
    · have hname : Text.IsWord "struct_update".toList := by decide +kernel
      have hfunction : Separable false _ := .dotted hnames.runtimeAlias hname
      simpa using hfunction
    · exact htype
  obtain ⟨positional, hpositional, hexpression⟩ :=
    (recordCode_draft .python settings form c c.table).expression_eq hbase
  have hkeywords := fun k (hk : k ∈ Python.keywords p (form.typeName settings)) =>
    hc.separable_keyword hnames hturbofish htype settings.tab hk
  have hargs : ∀ arg ∈ positional ++ (Python.keywords p (form.typeName settings)).map
      (Python.Computation.keyword settings.runtimeAlias),
        Separable false (arg.render settings.tab).toList := by
    intro arg harg
    rcases List.mem_append.mp harg with harg | harg
    · have hmem := List.mem_map_of_mem (f := Code.render settings.tab) harg
      rw [hpositional] at hmem
      exact hc.separable_positional hturbofish htype hmem
    · obtain ⟨k, hk, rfl⟩ := List.mem_map.mp harg
      obtain ⟨hname, hvalue⟩ := hkeywords k hk
      simpa [Python.Computation.keyword] using hvalue.keyword hname
  obtain ⟨tokens, front, inner, opener, closer, hcall⟩ :
      ∃ tokens front inner opener closer, Python.CallTokens _
        ((Code.text (form.callee settings c.base)).render settings.tab) _ tokens front inner opener
        closer := Python.exists_callTokens htab hcallee hargs
  refine ⟨_, (Python.keywords p (form.typeName settings)).map fun k => Text.hung settings.indent
    ((Python.Computation.keyword settings.runtimeAlias k).render settings.tab), tokens, front,
    inner, opener, closer, congrArg _ hexpression, ?_, ?_⟩
  · have hrendered : (form.positional settings c.base).map (Text.hung settings.indent) =
        positional.map fun arg => Text.hung settings.indent (arg.render settings.tab) := by
      have hrender : form.positional settings c.base = _ := (hpositional settings.tab).symm
      rw [hrender, List.map_map]
      rfl
    rw [List.map_append, List.map_map] at hcall
    rw [hrendered]
    exact hcall
  · have htargets : c.table.targets = (Python.keywords p (form.typeName settings)).map
        Python.Keyword.name := by
      simp [Python.keywords, p, FieldTable.plan, FieldTable.targets, List.map_map]
    rw [htargets, List.forall₂_map_left_iff, List.forall₂_map_right_iff, List.forall₂_same]
    exact fun k hk => Python.begins_hung_keyword (hkeywords k hk).1 _ _ _

/-- No expression reaches into its neighbours. The expression that a field list expands to in the
python dialect is read as one call up to its end, when none of the expressions in the list has a
turbofish and the path of the type has no comma outside of its brackets. The arguments of the call
are the type and the base, if there is a base, and one argument for each field of the table, in
order, which begins with the name of the field and an equals sign. Like all lines of the code the
later lines of an argument stand behind a margin. -/
theorem expand_separates_arguments {form : RecordForm} {c : Composition}
    {dialect? : Option Dialect} {settings : Settings} {file text : String} {expansion : Expansion}
    (hdialect : dialect?.getD settings.dialect = .python) (hnames : settings.HasWordNames)
    (hread : Invocation.ofText form.entryPoint (.dialect .python) text = .ok (form.invocation c))
    (hexpand : expand form.entryPoint.name text (dialect?.map Dialect.name) settings file =
      .ok expansion)
    (hturbofish : ∀ e ∈ c.expressions, ¬Text.HasTurbofish e.text)
    (hcomma : ∀ typePath ∈ form.typePath?, ¬Text.HasOuterComma typePath.text) :
    ∃ t expression named tokens front inner opener closer,
      c.resolve = .ok t ∧ expansion.expression = some expression ∧
      Python.CallTokens expression (form.callee settings c.base)
        ((form.positional settings c.base).map (Text.hung settings.indent) ++ named)
        tokens front inner opener closer ∧
      List.Forall₂ (fun target arg => (target ++ "=").toList <+: arg.toList) t.targets named := by
  obtain ⟨hform, hc⟩ := Invocation.isSeparable_of_ofText hread
  have hwell := (Parser.Returns.invocation form.entryPoint).of_onText hread
  have hbase : form.takesBase .python = false → c.base = none := by
    cases form with
    | update typePath => nofun
    | anonymous => exact fun _ => hwell.of_anonRecord.base_eq_none
  rw [expand_eq, hdialect, hread] at hexpand
  dsimp only at hexpand
  rw [Backend.expand] at hexpand
  split at hexpand
  · cases hexpand
  cases htable : (form.invocation c).table with
  | error conflict =>
    rw [htable] at hexpand
    cases hexpand
  | ok t =>
    rw [htable] at hexpand
    have hresolve : c.resolve = .ok t := by
      cases form with
      | update typePath => exact htable
      | anonymous => exact htable
    obtain ⟨-, rfl⟩ := Composition.resolve_eq_ok_iff.mp hresolve
    obtain rfl := Except.ok.inj hexpand
    obtain ⟨expression, named, tokens, front, inner, opener, closer, hexpression, hcall,
      htargets⟩ := RecordForm.exists_callTokens hnames hform hc hbase hturbofish hcomma
    exact ⟨c.table, expression, named, tokens, front, inner, opener, closer, hresolve, hexpression,
      hcall, htargets⟩

/-- A value with brackets in a string, a field of a group that is renamed and converted, and a
base. -/
def Composition.mixedFields : Composition where
  items := [
    .entry { name := "x", value := some ⟨"f(a, '),')", ⟨1, 8⟩⟩, position := ⟨1, 5⟩ },
    .group ⟨[{ name := "z", modifier := .cloneInto, rename := some "y", position := ⟨1, 22⟩ }],
      ⟨"s", ⟨1, 34⟩⟩, ⟨1, 20⟩⟩]
  base := some ⟨"q[0]", ⟨1, 39⟩⟩

def Expansion.mixedFields : Expansion where
  entryPoint := .spread
  dialect := "python"
  imports := ["import fieldspread.runtime as _fs"]
  statements := ["__z = s"]
  expression := some ("_fs.struct_update(\n    P,\n    q[0],\n    x=f(a, '),'),\n" ++
    "    y=_fs.into(_fs.clone(__z.z), P, 'y'),\n)")

theorem expand_separates_arguments_mixedFields :
    let text := "P \x7b x: f(a, '),'), \x7b +>y: z \x7d in s, ..q[0] \x7d"
    let form : RecordForm := .update ⟨"P", ⟨1, 1⟩⟩
    let c := Composition.mixedFields
    Settings.HasWordNames {} ∧
      Invocation.ofText form.entryPoint (.dialect .python) text = .ok (form.invocation c) ∧
      expand form.entryPoint.name text (Option.map Dialect.name none) {} "<input>" =
        .ok .mixedFields ∧
      (∀ e ∈ c.expressions, ¬Text.HasTurbofish e.text) ∧
      (∀ typePath ∈ form.typePath?, ¬Text.HasOuterComma typePath.text) ∧
      ∃ t expression named tokens front inner opener closer,
        c.resolve = .ok t ∧ Expansion.mixedFields.expression = some expression ∧
        Python.CallTokens expression (form.callee {} c.base)
          ((form.positional {} c.base).map (Text.hung 4) ++ named)
          tokens front inner opener closer ∧
        List.Forall₂ (fun target arg => (target ++ "=").toList <+: arg.toList) t.targets named := by
  intro text form c
  have hnames : Settings.HasWordNames {} := by decide +kernel
  have hread : Invocation.ofText form.entryPoint (.dialect .python) text =
      .ok (form.invocation c) := by decide +kernel
  have hexpand : expand form.entryPoint.name text (Option.map Dialect.name none) {} "<input>" =
      .ok .mixedFields := by decide +kernel
  have hturbofish : ∀ e ∈ c.expressions, ¬Text.HasTurbofish e.text := by decide +kernel
  have hcomma : ∀ typePath ∈ form.typePath?, ¬Text.HasOuterComma typePath.text := by
    decide +kernel
  exact ⟨hnames, hread, hexpand, hturbofish, hcomma,
    expand_separates_arguments rfl hnames hread hexpand hturbofish hcomma⟩

/-- A name with a middle dot is an identifier, which settings may hold, but no word of the lexer:
the code that uses it is not read. -/
theorem not_read_middleDot :
    let settings : Settings := { runtimeAlias := "a·b" }
    let form : RecordForm := .update ⟨"P", ⟨1, 1⟩⟩
    let c : Composition := { items := [.entry
      { name := "x", modifier := .clone, position := ⟨1, 5⟩ }] }
    let expansion : Expansion :=
      { entryPoint := .spread, dialect := "python",
        imports := ["import fieldspread.runtime as a·b"],
        expression := some "P(\n    x=a·b.clone(x),\n)" }
    settings.IsValid ∧
      Invocation.ofText .spread (.dialect .python) "P \x7b +x \x7d" = .ok (form.invocation c) ∧
      (∀ e ∈ c.expressions, ¬Text.HasTurbofish e.text) ∧
      (∀ typePath ∈ form.typePath?, ¬Text.HasOuterComma typePath.text ∧
        '<' ∉ typePath.text.toList) ∧
      expand "spread" "P \x7b +x \x7d" (some "python") settings "<input>" = .ok expansion ∧
      Tokens.ofText (.dialect .python) "P(\n    x=a·b.clone(x),\n)" =
        .error (.fault (.unexpectedCharacter '·') ⟨2, 8⟩) := by
  decide +kernel

end FieldComposition
