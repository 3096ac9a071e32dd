import FieldComposition.Proofs.WholeFieldList

/-!
# Refused phrases

A parser that fails on tokens whatever follows them makes every parser fail that comes to them. So a
text is refused with the error of the first entry in it that is refused, on its own or in a group
(`Parser.refuses_group`, `Parser.refuses_fieldList`, `Composition.ofText_of_refuses`).
-/

namespace FieldComposition

/-- The first item of its kind in a list stands behind items that are closed and not of the kind. -/
lemma CommaList.exists_first {α : Type} {P : α → Prop} {l : CommaList α}
    (h : ∃ a ∈ l.items, P a) :
    ∃ closed a, a ∈ l.items ∧ P a ∧ (∀ item ∈ closed, item ∈ l.closed ∧ ¬P item.1) ∧
      ∀ part, ∃ behind, l.parts part = closedParts part closed ++ (part a ++ behind) := by
  obtain ⟨closed, last⟩ := l
  induction closed with
  | nil =>
    obtain ⟨a, ha, hP⟩ := h
    obtain rfl : last = some a := by simpa [items] using ha
    exact ⟨[], a, ha, hP, by simp, fun part => ⟨[], by simp [parts, closedParts]⟩⟩
  | cons item closed ih =>
    by_cases hitem : P item.1
    · refine ⟨[], item.1, by simp [items], hitem, by simp, fun part => ?_⟩
      exact ⟨(.sign, item.2) :: parts part ⟨closed, last⟩, by simp [parts, closedParts]⟩
    · have hrest : ∃ a ∈ items ⟨closed, last⟩, P a := by
        obtain ⟨a, ha, hP⟩ := h
        rcases List.mem_cons.mp ha with rfl | ha
        · exact absurd hP hitem
        · exact ⟨a, ha, hP⟩
      obtain ⟨closed', a, ha, hP, hclosed, hparts⟩ := ih hrest
      refine ⟨item :: closed', a, List.mem_cons_of_mem _ ha, hP, ?_, fun part => ?_⟩
      · rintro item' hmem
        rcases List.mem_cons.mp hmem with rfl | hmem
        · exact ⟨List.mem_cons_self, hitem⟩
        · exact ⟨List.mem_cons_of_mem _ (hclosed item' hmem).1, (hclosed item' hmem).2⟩
      · obtain ⟨behind, hsplit⟩ := hparts part
        refine ⟨behind, ?_⟩
        simp only [parts, closedParts, List.flatMap_cons, List.append_assoc] at hsplit ⊢
        rw [hsplit]

namespace Parser

/-- The parser fails on the tokens, whatever follows them. -/
def Refuses {α : Type} (src : Source) (p : Parser α) (ts : List Token) (error : ReadError) : Prop :=
  ∀ rest, p.run src (ts ++ rest) = .error error

variable {src : Source} {ts : List Token} {error : ReadError}

lemma Refuses.append {α : Type} {p : Parser α} (h : Refuses src p ts error) (more : List Token) :
    Refuses src p (ts ++ more) error := by
  intro rest
  rw [List.append_assoc]
  exact h (more ++ rest)

lemma Refuses.bind {α β : Type} {p : Parser α} (h : Refuses src p ts error) (f : α → Parser β) :
    Refuses src (p >>= f) ts error := by
  intro rest
  rw [run_bind, h rest]

section

variable {α φ : Type} {item : List α → Parser (List α)} {part : φ → List (Role × Token)}
  {value : φ → α} {ok : φ → Prop} {close : TokenKind} {stops : TokenKind → Bool} {sought : Sought}
  {closed : List (φ × Token)}

/-- Behind items that are read a list is refused where the next item is. -/
lemma ReadsItems.refuses (hreads : ReadsItems src item part value ok close stops)
    (hcomma : ∀ item ∈ closed, item.2.kind = .comma) (hok : ∀ item ∈ closed, ok item.1)
    (hstart : ∃ t more, ts = t :: more ∧ t.kind ≠ close ∧ stops t.kind = false)
    (h : ∀ as, Refuses src (item as) ts error) (as : List α) :
    Refuses src (separated close stops sought item as)
      ((CommaList.closedParts part closed).map Prod.snd ++ ts) error := by
  intro rest
  obtain ⟨t, more, rfl, hclose, hstops⟩ := hstart
  rw [List.append_assoc, hreads.run_separated_closed hcomma hok]
  refine run_separated_of_error ?_ ?_ (h _ rest)
  · exact hclose
  · exact hstops

end

variable {rule : ListRule} {allowMut : Bool}

/-- What an entry may start with. -/
def StartsEntry (ts : List Token) : Prop :=
  ∃ t more, ts = t :: more ∧ t.kind ∈ TokenKind.entryStarts

lemma refuses_groupEntry {openBrace : Token} (hstart : StartsEntry ts)
    (h : Refuses src (entry [.comma, .closeBrace] true allowMut) ts error) (as : List Entry) :
    Refuses src (groupEntry openBrace allowMut as) ts error := by
  have hstarts : ∀ kind ∈ TokenKind.entryStarts, kind ≠ .eof ∧ kind ≠ .openBrace := by decide
  obtain ⟨t, more, rfl, hkind⟩ := hstart
  intro rest
  rw [run_groupEntry, h rest]
  exact (if_neg (hstarts _ hkind).1).trans (if_neg (hstarts _ hkind).2)

lemma refuses_group (heof : src.eof.kind = .eof) {openBrace : Token}
    {closed : List (EntryPhrase × Token)} (hcomma : ∀ item ∈ closed, item.2.kind = .comma)
    (hok : ∀ item ∈ closed,
      item.1.IsWellFormed src.host [.comma, .closeBrace] true rule.allowMut)
    (hstart : StartsEntry ts)
    (h : Refuses src (entry [.comma, .closeBrace] true rule.allowMut) ts error) :
    Refuses src (group rule)
      (openBrace :: ((CommaList.closedParts EntryPhrase.parts closed).map Prod.snd ++ ts))
      error := by
  have hentry : ∃ t more, ts = t :: more ∧ t.kind ≠ .closeBrace ∧ false = false := by
    have hstarts : ∀ kind ∈ TokenKind.entryStarts, kind ≠ .closeBrace := by decide
    obtain ⟨t, more, hts, hkind⟩ := hstart
    exact ⟨t, more, hts, hstarts _ hkind, rfl⟩
  have hentries : Refuses src (separated .closeBrace (fun _ => false) .fieldSeparator
      (groupEntry openBrace rule.allowMut) [])
        ((CommaList.closedParts EntryPhrase.parts closed).map Prod.snd ++ ts) error :=
    (readsItems_groupEntry heof).refuses hcomma hok hentry (refuses_groupEntry hstart h) []
  intro rest
  rw [group, run_advance_bind]
  exact hentries.bind _ rest

lemma refuses_item_of_entry (hstart : StartsEntry ts)
    (h : Refuses src (entry [.comma, rule.close] false rule.allowMut) ts error)
    (items : List Item) : Refuses src (item rule items) ts error := by
  have hstarts : ∀ kind ∈ TokenKind.entryStarts,
      kind ≠ .eof ∧ kind ≠ .openBrace ∧ kind.isCloser = false := by decide
  obtain ⟨t, more, rfl, hkind⟩ := hstart
  obtain ⟨heof, hopen, hcloser⟩ := hstarts _ hkind
  intro rest
  rw [run_item]
  refine (if_neg heof).trans ((if_neg hopen).trans ((if_neg ?_).trans (h.bind _ rest)))
  exact Bool.not_eq_true _ ▸ hcloser

lemma refuses_item_of_group {openBrace : Token} (hopen : openBrace.kind = .openBrace)
    (h : Refuses src (group rule) (openBrace :: ts) error) (items : List Item) :
    Refuses src (item rule items) (openBrace :: ts) error := by
  have heof : openBrace.kind ≠ .eof := by rw [hopen]; decide
  intro rest
  rw [run_item]
  exact (if_neg heof).trans ((if_pos hopen).trans (h.bind _ rest))

lemma refuses_fieldList (hclose : rule.close = .closeBrace ∨ rule.close = .eof)
    (heof : src.eof.kind = .eof) {closed : List (ItemPhrase × Token)}
    (hcomma : ∀ item ∈ closed, item.2.kind = .comma)
    (hok : ∀ item ∈ closed, item.1.IsWellFormed src.host rule)
    (hstart : ∃ t more, ts = t :: more ∧ t.kind ∈ TokenKind.openBrace :: TokenKind.entryStarts)
    (h : ∀ items, Refuses src (item rule items) ts error) :
    Refuses src (fieldList rule)
      ((CommaList.closedParts ItemPhrase.parts closed).map Prod.snd ++ ts) error := by
  have hitem : ∃ t more, ts = t :: more ∧ t.kind ≠ rule.close ∧ (t.kind == .dotDot) = false := by
    have hstarts : ∀ kind ∈ TokenKind.openBrace :: TokenKind.entryStarts,
        kind ≠ .closeBrace ∧ kind ≠ .eof ∧ (kind == .dotDot) = false := by decide
    obtain ⟨t, more, hts, hkind⟩ := hstart
    obtain ⟨hbrace, hend, hdots⟩ := hstarts _ hkind
    refine ⟨t, more, hts, ?_, hdots⟩
    rcases hclose with hclose | hclose <;> rwa [hclose]
  exact ((readsItems_item hclose heof).refuses hcomma hok hitem h []).bind _

end Parser

/-- A text is refused with the error of the field list in it. -/
lemma Composition.ofText_of_refuses {allowBase allowMut : Bool} {host : Host} {text : String}
    {ts : List Token} {eof : Token} {error : ReadError} (braces : Option (Token × Token))
    (htokens : Tokens.ofText host text =
      .ok ⟨braces.elim ts fun b => b.1 :: (ts ++ [b.2]), eof⟩)
    (hpair : Token.isBracePair (braces.elim ts fun b => b.1 :: (ts ++ [b.2])) = braces.isSome)
    (h : Parser.Refuses ⟨host, text, eof⟩
      (Parser.fieldList
        { close := if braces.isSome then .closeBrace else .eof, allowBase, allowMut }) ts error) :
    ofText allowBase allowMut host text = .error error := by
  have hwhole : (Parser.wholeFieldList allowBase allowMut).run ⟨host, text, eof⟩
      (braces.elim ts fun b => b.1 :: (ts ++ [b.2])) = .error error := by
    rw [Parser.run_wholeFieldList, hpair]
    cases braces with
    | none =>
      have hlist := h []
      rw [List.append_nil] at hlist
      exact (if_neg (by simp)).trans hlist
    | some b =>
      refine (if_pos rfl).trans ?_
      rw [Parser.run_skip_bind]
      exact h.bind _ [b.2]
  rw [ofText, Parser.onText, htokens]
  dsimp only
  rw [Parser.run_bind, hwhole]
  rfl

end FieldComposition
