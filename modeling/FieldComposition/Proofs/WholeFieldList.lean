import FieldComposition.Proofs.PhraseReading

/-!
# Field lists that are whole texts

Phrases close the brackets that they open. So the braces around a whole text are told from those of
a group, and a text is read as a composition exactly if its tokens are those of a phrase that stands
for it (`Composition.ofText_iff`).
-/

namespace FieldComposition

open Role (signs)

/-- Whether a list of tokens is one pair of braces and what stands in it. -/
def Token.isBracePair (ts : List Token) : Bool :=
  ts.head?.map Token.kind == some .openBrace && matchingClose? ts == some (ts.length - 1)

/-- Parts of a phrase that close the brackets that they open. -/
def Role.Enclosed (parts : List (Role × Token)) : Prop :=
  FieldComposition.Enclosed true 0 (parts.map fun part => part.2.kind)

namespace Role.Enclosed

variable {parts parts' : List (Role × Token)} {ts : List Token}

lemma nil : Role.Enclosed [] := FieldComposition.Enclosed.nil

lemma append (h : Role.Enclosed parts) (h' : Role.Enclosed parts') :
    Role.Enclosed (parts ++ parts') := by
  have happend := FieldComposition.Enclosed.append h h'
  rw [← List.map_append] at happend
  exact happend

lemma of_signs (h : FieldComposition.Enclosed true 0 (ts.map Token.kind)) :
    Role.Enclosed (signs ts) := by
  rw [Role.Enclosed, signs, List.map_map]
  exact h

lemma of_forall
    (h : ∀ part ∈ parts, part.2.kind.isOpener = false ∧ part.2.kind.isCloser = false) :
    Role.Enclosed parts := by
  induction parts with
  | nil => exact nil
  | cons part parts ih =>
    obtain ⟨hopener, hcloser⟩ := h part List.mem_cons_self
    exact .plain hopener hcloser (fun _ _ => rfl) (ih fun q hq => h q (List.mem_cons_of_mem _ hq))

/-- A token that is no bracket. -/
lemma single {part : Role × Token} (kind : TokenKind) (hkind : part.2.kind = kind)
    (hplain : kind.isOpener = false ∧ kind.isCloser = false) : Role.Enclosed [part] :=
  of_forall fun q hq => by rwa [List.mem_singleton.mp hq, hkind]

lemma flatMap {α : Type} {l : List α} {f : α → List (Role × Token)}
    (h : ∀ a ∈ l, Role.Enclosed (f a)) : Role.Enclosed (l.flatMap f) := by
  induction l with
  | nil => exact nil
  | cons a l ih =>
    rw [List.flatMap_cons]
    exact (h a List.mem_cons_self).append (ih fun b hb => h b (List.mem_cons_of_mem _ hb))

lemma bracket {opener closer : Role × Token}
    (hkind : opener.2.kind.closer? = some closer.2.kind) (h : Role.Enclosed parts)
    (h' : Role.Enclosed parts') : Role.Enclosed (opener :: (parts ++ closer :: parts')) := by
  have hbracket : FieldComposition.Enclosed true 0 (opener.2.kind ::
      (parts.map (fun part => part.2.kind) ++ closer.2.kind ::
        parts'.map fun part => part.2.kind)) := Nested.enclosed_bracket hkind h h'
  rw [Role.Enclosed, List.map_cons, List.map_append, List.map_cons]
  exact hbracket

end Role.Enclosed

variable {host : Host} {rule : Parser.ListRule} {stops : List TokenKind} {inGroup allowMut : Bool}

lemma PathPhrase.IsWellFormed.enclosed {p : PathPhrase} (h : p.IsWellFormed) :
    Role.Enclosed p.parts := by
  have hpath : Role.Enclosed p.path := by
    refine .append ?_ (.append (.single _ h.first (by decide)) (.flatMap fun s hs => ?_))
    · cases hroot : p.root with
      | none => exact .nil
      | some t => exact .single _ (h.root t hroot) (by decide)
    · obtain ⟨hkind | hkind, hname⟩ := h.segments s hs
      · exact .append (.single _ hkind (by decide)) (.single _ hname (by decide))
      · exact .append (.single _ hkind (by decide)) (.single _ hname (by decide))
  refine .bracket ?_ hpath .nil
  rw [h.openBracket, h.closeBracket]
  rfl

lemma ModifierPhrase.IsWellFormed.enclosed {p : ModifierPhrase} (h : p.IsWellFormed) :
    Role.Enclosed p.parts := by
  refine .append ?_ (.of_forall fun part hpart => ?_)
  · cases hpath : p.path with
    | none => exact .nil
    | some b => exact (h.path b hpath).enclosed
  · have hlists : ∀ kinds ∈ [[], [TokenKind.amp], [.amp, .wordMut], [.plus], [.plus, .greater],
        [.greater]], ∀ kind ∈ kinds, kind.isOpener = false ∧ kind.isCloser = false := by decide
    have hmem : p.signs.map Token.kind ∈ [[], [TokenKind.amp], [.amp, .wordMut], [.plus],
        [.plus, .greater], [.greater]] := by
      rcases Modifier.Kind.ofSigns?_isSome h.kind with hsigns | ⟨-, hsigns⟩
      · exact List.mem_append_left [[.plus], [.plus, .greater], [.greater]] hsigns
      · exact List.mem_append_right [[], [.amp], [.amp, .wordMut]] hsigns
    obtain ⟨t, ht, rfl⟩ := List.mem_map.mp hpart
    exact hlists _ hmem _ (List.mem_map_of_mem ht)

lemma Host.plain_of_isName {kind : TokenKind} (h : host.isName kind) :
    kind.isOpener = false ∧ kind.isCloser = false := by
  have hnames : ∀ kind ∈ TokenKind.entryStarts, kind ≠ .openBracket →
      kind.isOpener = false ∧ kind.isCloser = false := by decide
  exact hnames kind (mem_entryStarts_of_isName h) (kind_of_isName h).2.2.2.1

lemma EntryTail.IsWellFormed.enclosed {tail : EntryTail} {name : String}
    (h : tail.IsWellFormed host stops inGroup name) : Role.Enclosed tail.parts := by
  cases tail with
  | nothing => exact .nil
  | source colon field =>
    exact .append (.single _ h.2.1 (by decide)) (.single _ rfl (Host.plain_of_isName h.2.2))
  | value colon ts => exact .append (.single _ h.2.1 (by decide)) (.of_signs h.2.2.enclosed)

lemma EntryPhrase.IsWellFormed.enclosed {p : EntryPhrase}
    (h : p.IsWellFormed host stops inGroup allowMut) : Role.Enclosed p.parts := by
  have hname : Role.Enclosed [(.name, p.name)] := .single _ rfl (Host.plain_of_isName h.name)
  refine .append ?_ (h.modifier.enclosed.append (hname.append h.tail.enclosed))
  cases hmark : p.mark with
  | none => exact .nil
  | some t => exact .single _ (h.mark t hmark).1 (by decide)

lemma CommaList.IsWellFormed.enclosed {α : Type} {l : CommaList α} {ok : α → Prop}
    {part : α → List (Role × Token)} (h : l.IsWellFormed ok)
    (hpart : ∀ a, ok a → Role.Enclosed (part a)) : Role.Enclosed (l.parts part) := by
  refine .append (.flatMap fun item hitem => ?_) ?_
  · refine (hpart _ (h.items _ ?_)).append (.single _ (h.comma item hitem) (by decide))
    exact List.mem_append_left _ (List.mem_map_of_mem hitem)
  · cases hlast : l.last with
    | none => exact .nil
    | some a => exact hpart a (h.items a (by simp [CommaList.items, hlast]))

lemma GroupPhrase.IsWellFormed.enclosed {p : GroupPhrase} (h : p.IsWellFormed host rule) :
    Role.Enclosed p.parts := by
  refine .bracket ?_ (h.entries.enclosed fun _ hp => EntryPhrase.IsWellFormed.enclosed hp)
    (.append (.single _ h.wordIn (by decide)) (.of_signs h.source.enclosed))
  rw [h.openBrace]
  exact congrArg some h.closeBrace.symm

lemma ItemPhrase.IsWellFormed.enclosed {p : ItemPhrase} (h : p.IsWellFormed host rule) :
    Role.Enclosed p.parts := by
  cases p with
  | entry p => exact EntryPhrase.IsWellFormed.enclosed h
  | group p => exact GroupPhrase.IsWellFormed.enclosed h

lemma ListPhrase.IsWellFormed.enclosed {p : ListPhrase} (h : p.IsWellFormed host rule) :
    Role.Enclosed p.parts := by
  refine (h.items.enclosed fun _ hp => ItemPhrase.IsWellFormed.enclosed hp).append ?_
  cases hbase : p.base with
  | none => exact .nil
  | some b =>
    obtain ⟨-, -, hkind, hadmits⟩ := h.base b hbase
    exact .append (.single _ hkind (by decide)) (.of_signs hadmits.enclosed)

/-- A list that starts with a brace starts with a group. -/
lemma ListPhrase.IsWellFormed.exists_group {p : ListPhrase} (h : p.IsWellFormed host rule)
    (hopen : p.tokens.head?.map Token.kind = some .openBrace) :
    ∃ g : GroupPhrase, g.IsWellFormed host rule ∧ g.tokens <+: p.tokens := by
  have hitem {q : ItemPhrase} (hq : q.IsWellFormed host rule) (hbegins : q.parts <+: p.parts) :
      ∃ g : GroupPhrase, g.IsWellFormed host rule ∧ g.tokens <+: p.tokens := by
    cases q with
    | group g => exact ⟨g, hq, hbegins.map Prod.snd⟩
    | entry e =>
      have hstarts : ∀ kind ∈ TokenKind.entryStarts, kind ≠ .openBrace := by decide
      obtain ⟨t, rest, hentry, hstart⟩ := EntryPhrase.IsWellFormed.exists_tokens hq
      have hbegins : t :: rest <+: p.tokens := hentry ▸ hbegins.map Prod.snd
      obtain ⟨more, htokens⟩ := hbegins
      rw [← htokens] at hopen
      exact absurd (Option.some.inj hopen) (hstarts _ hstart)
  obtain ⟨⟨closed, last⟩, base⟩ := p
  cases closed with
  | cons q closed =>
    refine hitem (h.items.items q.1 (by simp [CommaList.items])) ?_
    have hclosed : q.1.parts <+: CommaList.closedParts ItemPhrase.parts (q :: closed) := by
      rw [CommaList.closedParts, List.flatMap_cons, List.append_assoc]
      exact List.prefix_append _ _
    exact hclosed.trans ((List.prefix_append _ _).trans (List.prefix_append _ _))
  | nil =>
    cases last with
    | some q =>
      exact hitem (h.items.items q (by simp [CommaList.items])) (List.prefix_append _ _)
    | none =>
      cases base with
      | none => cases hopen
      | some b =>
        have hkind : b.1.kind = .openBrace := Option.some.inj hopen
        rw [(h.base b rfl).2.2.1] at hkind
        cases hkind

/-- A bracket around tokens that close their own brackets is closed by the token behind them. -/
lemma Token.matchingClose?_append {opener closer : Token} {part rest : List Token}
    (hcloser : closer.kind.isCloser) (h : Enclosed true 0 (part.map kind)) :
    matchingClose? (opener :: (part ++ closer :: rest)) = some (part.length + 1) := by
  have hopener := TokenKind.isOpener_eq_false_of_isCloser hcloser
  rw [matchingClose?, Closes.of_enclosed h 0 (closer :: rest), toClose?_cons,
    if_neg (by simp [hopener]), if_pos hcloser]
  simp

/-- Tokens that go on behind the bracket that closes the first one are no pair of braces. -/
lemma Token.isBracePair_eq_false {opener closer t : Token} {part rest : List Token}
    (hcloser : closer.kind.isCloser) (h : Enclosed true 0 (part.map kind)) :
    isBracePair (opener :: (part ++ closer :: t :: rest)) = false := by
  rw [isBracePair, matchingClose?_append hcloser h]
  simp

/-- A list without braces around it is no pair of braces: a group at its start has a source. -/
lemma ListPhrase.IsWellFormed.isBracePair_eq {p : ListPhrase} (h : p.IsWellFormed host rule) :
    Token.isBracePair p.tokens = false := by
  by_contra hpair
  obtain ⟨hopen, -⟩ := Bool.and_eq_true_iff.mp ((Bool.not_eq_false _).mp hpair)
  obtain ⟨g, hg, more, htokens⟩ := h.exists_group (beq_iff_eq.mp hopen)
  let entries := (g.entries.parts EntryPhrase.parts).map Prod.snd
  have hentries : Enclosed true 0 (entries.map Token.kind) := by
    have hparts := hg.entries.enclosed fun _ hp => EntryPhrase.IsWellFormed.enclosed hp
    rw [List.map_map]
    exact hparts
  have hgroup : p.tokens =
      g.openBrace :: (entries ++ g.closeBrace :: (g.wordIn :: (g.source ++ more))) := by
    rw [← htokens, GroupPhrase.tokens_eq]
    simp [entries]
  rw [hgroup, Token.isBracePair_eq_false (by rw [hg.closeBrace]; rfl) hentries] at hpair
  simp at hpair

/-- Exactly the phrases in braces are pairs of braces. -/
lemma TextPhrase.IsWellFormed.isBracePair_eq {p : TextPhrase} {allowBase allowMut : Bool}
    (h : p.IsWellFormed host allowBase allowMut) :
    Token.isBracePair p.tokens = p.braces.isSome := by
  obtain ⟨braces, list⟩ := p
  rw [TextPhrase.tokens_eq]
  cases braces with
  | none => exact h.list.isBracePair_eq
  | some b =>
    obtain ⟨hopen, hclose⟩ := h.braces b rfl
    have henclosed : Enclosed true 0 (list.tokens.map Token.kind) := by
      rw [ListPhrase.tokens, List.map_map]
      exact h.list.enclosed
    rw [Option.elim_some, Token.isBracePair,
      Token.matchingClose?_append (by rw [hclose]; rfl) henclosed]
    simp [hopen]

namespace Parser

variable {src : Source} {ts rest : List Token} {allowBase allowMut : Bool}

lemma run_wholeFieldList (allowBase allowMut : Bool) (src : Source) (ts : List Token) :
    (wholeFieldList allowBase allowMut).run src ts =
      if Token.isBracePair ts then
        (skip 1 >>= fun _ => fieldList { close := .closeBrace, allowBase, allowMut } >>= fun c =>
          expect .closeBrace .closingBrace >>= fun _ => pure c).run src ts
      else (fieldList { close := .eof, allowBase, allowMut }).run src ts := by
  rw [wholeFieldList, run_bind, run_remaining]
  dsimp only
  by_cases hpair : Token.isBracePair ts
  · rw [if_pos hpair]
    exact congrArg (Parser.run · src ts) (if_pos hpair)
  · rw [if_neg hpair]
    exact congrArg (Parser.run · src ts) (if_neg hpair)

variable {c : Composition} (heof : src.eof.kind = .eof) (hts : ∀ t ∈ ts, t.kind ≠ .eof)

include heof hts

/-- The tokens of a text that is read to its end are those of a phrase. -/
lemma exists_phrase_of_run_wholeFieldList
    (h : (wholeFieldList allowBase allowMut).run src ts = .ok (c, rest))
    (hrest : (rest.headD src.eof).kind = .eof) :
    ∃ p : TextPhrase, p.IsWellFormed src.host allowBase allowMut ∧ p.tokens = ts ∧
      c = p.composition src.text := by
  have hnil {front : List Token} (htokens : ts = front ++ rest) : rest = [] := by
    cases rest with
    | nil => rfl
    | cons t rest => exact absurd hrest (hts t (by rw [htokens]; simp))
  rw [run_wholeFieldList] at h
  split at h
  · rename_i hpair
    obtain ⟨hopen, -⟩ := Bool.and_eq_true_iff.mp hpair
    cases ts with
    | nil => cases hopen
    | cons openBrace ts =>
      rw [run_skip_bind, List.drop_succ_cons, List.drop_zero] at h
      obtain ⟨c', mid, hlist, h⟩ := exists_of_run_bind h
      obtain ⟨closeBrace, last, hexpect, h⟩ := exists_of_run_bind h
      obtain ⟨rfl, rfl⟩ := eq_of_run_pure h
      obtain ⟨rfl, hclose⟩ := eq_cons_of_run_expect (by rw [heof]; decide) hexpect
      have hnext : ((closeBrace :: rest).headD src.eof).kind = .closeBrace := hclose
      obtain ⟨p, hp, rfl, rfl⟩ := (run_fieldList_iff (.inl rfl) heof hnext).mp hlist
      have htokens : openBrace :: (p.tokens ++ closeBrace :: rest) =
          (openBrace :: (p.tokens ++ [closeBrace])) ++ rest := by simp
      obtain rfl := hnil htokens
      refine ⟨⟨some (openBrace, closeBrace), p⟩, ⟨?_, hp⟩, TextPhrase.tokens_eq _, rfl⟩
      rintro b ⟨⟩
      exact ⟨Option.some.inj (beq_iff_eq.mp hopen), hclose⟩
  · obtain ⟨p, hp, rfl, rfl⟩ := (run_fieldList_iff (.inr rfl) heof hrest).mp h
    obtain rfl := hnil rfl
    exact ⟨⟨none, p⟩, ⟨by simp, hp⟩, by rw [List.append_nil, TextPhrase.tokens_eq]; rfl, rfl⟩

omit hts in
/-- A phrase that is a whole text is read to its end. -/
lemma run_wholeFieldList_of_isWellFormed {p : TextPhrase}
    (hp : p.IsWellFormed src.host allowBase allowMut) :
    (wholeFieldList allowBase allowMut).run src p.tokens = .ok (p.composition src.text, []) := by
  have hpair := hp.isBracePair_eq
  obtain ⟨braces, list⟩ := p
  rw [run_wholeFieldList, hpair, TextPhrase.tokens_eq]
  cases braces with
  | none =>
    have hlist : list.IsWellFormed src.host { close := .eof, allowBase, allowMut } := hp.list
    have hnext : (([] : List Token).headD src.eof).kind = .eof := heof
    refine (if_neg (by simp)).trans ?_
    exact (run_fieldList_iff (.inr rfl) heof hnext).mpr ⟨list, hlist, (List.append_nil _).symm, rfl⟩
  | some b =>
    obtain ⟨hopen, hclose⟩ := hp.braces b rfl
    have hlist : list.IsWellFormed src.host { close := .closeBrace, allowBase, allowMut } := hp.list
    have hnext : (([b.2]).headD src.eof).kind = .closeBrace := hclose
    have hrun : (fieldList { close := .closeBrace, allowBase, allowMut }).run src
        (list.tokens ++ [b.2]) = .ok (list.composition Token.value src.text, [b.2]) :=
      (run_fieldList_iff (.inl rfl) heof hnext).mpr ⟨list, hlist, rfl, rfl⟩
    refine (if_pos rfl).trans ?_
    rw [run_skip_bind, Option.elim_some, List.drop_succ_cons, List.drop_zero, run_bind, hrun]
    dsimp only
    rw [run_bind, run_expect hclose]
    rfl

end Parser

lemma Composition.exists_tokens_of_ofText {allowBase : Bool} {text : String} {c : Composition}
    (h : ofText allowBase allowMut host text = .ok c) :
    ∃ tokens, Tokens.ofText host text = .ok tokens := by
  rw [ofText, Parser.onText] at h
  rcases htokens : Tokens.ofText host text with error | tokens
  · rw [htokens] at h
    cases h
  · exact ⟨tokens, rfl⟩

/-- A text is read as a composition exactly if a phrase that stands for it is how it is read. -/
lemma Composition.ofText_iff {allowBase : Bool} {text : String} {c : Composition} :
    ofText allowBase allowMut host text = .ok c ↔
      ∃ p : TextPhrase, p.Reads host allowBase allowMut text ∧ c = p.composition text := by
  constructor
  · intro h
    obtain ⟨tokens, htokens⟩ := exists_tokens_of_ofText h
    obtain ⟨rest, hrun, hend⟩ := run_wholeFieldList_of_ofText htokens h
    obtain ⟨p, hp, hbody, rfl⟩ := Parser.exists_phrase_of_run_wholeFieldList
      (Tokens.kind_eof_of_ofText htokens) (Tokens.kind_ne_eof_of_ofText htokens) hrun hend
    refine ⟨p, ⟨hp, tokens.eof, ?_⟩, rfl⟩
    rw [hbody, htokens]
  · rintro ⟨p, ⟨hp, eof, htokens⟩, rfl⟩
    have heof := Tokens.kind_eof_of_ofText htokens
    exact ofText_of_run htokens (Parser.run_wholeFieldList_of_isWellFormed heof hp) heof

end FieldComposition
