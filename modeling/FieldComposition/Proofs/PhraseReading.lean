import FieldComposition.Proofs.EntryReading

/-!
# Phrases are what is read

A field list is read from exactly the tokens of the well-formed phrases, and it is the composition
that the phrase stands for (`Composition.ofText_iff`). Lists of items and of the entries of a group
are read by one parser, which reads one item after another (`Parser.ReadsItems`).
-/

namespace FieldComposition

open Role (signs)

lemma ItemPhrase.IsWellFormed.exists_tokens {host : Host} {rule : Parser.ListRule}
    {p : ItemPhrase} (h : p.IsWellFormed host rule) :
    ∃ t more, p.tokens = t :: more ∧ t.kind ∈ TokenKind.openBrace :: TokenKind.entryStarts := by
  cases p with
  | entry p =>
    obtain ⟨t, more, htokens, hstart⟩ := EntryPhrase.IsWellFormed.exists_tokens h
    exact ⟨t, more, htokens, List.mem_cons_of_mem _ hstart⟩
  | group p =>
    refine ⟨p.openBrace, _, p.tokens_eq, ?_⟩
    rw [GroupPhrase.IsWellFormed.openBrace h]
    exact List.mem_cons_self

namespace Parser

variable {src : Source} {ts rest : List Token}

section Separated

variable {σ : Type} {close : TokenKind} {stops : TokenKind → Bool} {sought : Sought}
  {item : σ → Parser σ} {s s' : σ}

lemma run_separated_of_end
    (h : (ts.headD src.eof).kind = close ∨ stops (ts.headD src.eof).kind) :
    (separated close stops sought item s).run src ts = .ok (s, ts) := by
  rw [run_separated, if_pos (by simpa using h)]

variable (hclose : (ts.headD src.eof).kind ≠ close)
  (hstops : stops (ts.headD src.eof).kind = false)

include hclose hstops

lemma run_separated_of_error {error : ReadError} (h : (item s).run src ts = .error error) :
    (separated close stops sought item s).run src ts = .error error := by
  rw [run_separated, if_neg (by rw [hstops]; simpa using hclose), h]

lemma run_separated_of_last (h : (item s).run src ts = .ok (s', rest))
    (hrest : (rest.headD src.eof).kind = close) :
    (separated close stops sought item s).run src ts = .ok (s', rest) := by
  rw [run_separated, if_neg (by rw [hstops]; simpa using hclose), h]
  exact if_pos hrest

lemma run_separated_of_comma {comma : Token} (hcomma : comma.kind = .comma) (hne : close ≠ .comma)
    (h : (item s).run src ts = .ok (s', comma :: rest)) :
    (separated close stops sought item s).run src ts =
      (separated close stops sought item s').run src rest := by
  have hkind : ((comma :: rest).headD src.eof).kind ≠ close := by
    rw [List.headD_cons, hcomma]
    exact hne.symm
  rw [run_separated, if_neg (by rw [hstops]; simpa using hclose), h]
  exact (if_neg hkind).trans (if_pos hcomma)

end Separated

section Lists

variable {α φ : Type} {item : List α → Parser (List α)} {part : φ → List (Role × Token)}
  {value : φ → α} {ok : φ → Prop} {close : TokenKind} {stops : TokenKind → Bool} {sought : Sought}
  {as as' : List α}

/-- One more item is read from the tokens of a phrase, before a comma or the end of the list. -/
structure ReadsItems (src : Source) (item : List α → Parser (List α))
    (part : φ → List (Role × Token)) (value : φ → α) (ok : φ → Prop) (close : TokenKind)
    (stops : TokenKind → Bool) : Prop where
  run_iff : ∀ as as' ts rest,
    (rest.headD src.eof).kind = .comma ∨ (rest.headD src.eof).kind = close →
      ((item as).run src ts = .ok (as', rest) ↔
        ∃ p, ok p ∧ ts = (part p).map Prod.snd ++ rest ∧ as' = as ++ [value p])
  start : ∀ p, ok p → ∃ t more, (part p).map Prod.snd = t :: more ∧ t.kind ≠ close ∧
    stops t.kind = false
  close_ne_comma : close ≠ .comma

namespace ReadsItems

variable (h : ReadsItems src item part value ok close stops)

include h

/-- Items with a comma behind each of them are read whatever follows. -/
lemma run_separated_closed {closed : List (φ × Token)}
    (hcomma : ∀ item ∈ closed, item.2.kind = .comma) (hok : ∀ item ∈ closed, ok item.1) :
    (separated close stops sought item as).run src
        ((CommaList.closedParts part closed).map Prod.snd ++ ts) =
      (separated close stops sought item (as ++ closed.map fun item => value item.1)).run src
        ts := by
  induction closed generalizing as with
  | nil => simp [CommaList.closedParts]
  | cons p closed ih =>
    have hp := hok p List.mem_cons_self
    have hkind := hcomma p List.mem_cons_self
    let behind := (CommaList.closedParts part closed).map Prod.snd ++ ts
    have htokens : (CommaList.closedParts part (p :: closed)).map Prod.snd ++ ts =
        (part p.1).map Prod.snd ++ p.2 :: behind := by
      simp [CommaList.closedParts, behind]
    have hrun : (item as).run src ((part p.1).map Prod.snd ++ p.2 :: behind) =
        .ok (as ++ [value p.1], p.2 :: behind) :=
      (h.run_iff _ _ _ (p.2 :: behind) (.inl hkind)).mpr ⟨p.1, hp, rfl, rfl⟩
    obtain ⟨t, more, hpart, hclose, hstops⟩ := h.start p.1 hp
    have hfirst : ((part p.1).map Prod.snd ++ p.2 :: behind).headD src.eof = t := by
      rw [hpart]
      rfl
    rw [htokens, run_separated_of_comma (by rwa [hfirst]) (by rwa [hfirst]) hkind
      h.close_ne_comma hrun, ih (fun q hq => hcomma q (List.mem_cons_of_mem _ hq))
        (fun q hq => hok q (List.mem_cons_of_mem _ hq)), List.map_cons, List.append_assoc]
    rfl

lemma run_separated_of_isWellFormed {l : CommaList φ} (hl : l.IsWellFormed ok)
    (hend : l.EndsBefore close stops (rest.headD src.eof).kind) :
    (separated close stops sought item as).run src ((l.parts part).map Prod.snd ++ rest) =
      .ok (as ++ l.items.map value, rest) := by
  obtain ⟨closed, last⟩ := l
  have hclosed : ∀ item ∈ closed, ok item.1 := fun item hitem =>
    hl.items _ (List.mem_append_left _ (List.mem_map_of_mem hitem))
  rw [CommaList.parts, List.map_append, List.append_assoc,
    h.run_separated_closed hl.comma hclosed]
  cases last with
  | none =>
    have hstop := hend.imp_right And.left
    refine (run_separated_of_end hstop).trans ?_
    simp [CommaList.items]
  | some p =>
    have hclose : (rest.headD src.eof).kind = close := by
      rcases hend with hclose | ⟨-, hnone⟩
      · exact hclose
      · cases hnone
    have hp := hl.items p (by simp [CommaList.items])
    have hrun := (h.run_iff (as ++ closed.map fun item => value item.1) _ _ rest
      (.inr hclose)).mpr ⟨p, hp, rfl, rfl⟩
    obtain ⟨t, more, hpart, hne, hstops⟩ := h.start p hp
    have hfirst : ((part p).map Prod.snd ++ rest).headD src.eof = t := by
      rw [hpart]
      rfl
    refine (run_separated_of_last (by rwa [hfirst]) (by rwa [hfirst]) hrun hclose).trans ?_
    simp [CommaList.items]

lemma exists_list_of_run_separated
    (hrun : (separated close stops sought item as).run src ts = .ok (as', rest)) :
    ∃ l : CommaList φ, l.IsWellFormed ok ∧ ts = (l.parts part).map Prod.snd ++ rest ∧
      as' = as ++ l.items.map value ∧ l.EndsBefore close stops (rest.headD src.eof).kind := by
  induction hn : ts.length using Nat.strong_induction_on generalizing as ts with
  | _ n ih =>
    rw [run_separated] at hrun
    split at hrun
    · rename_i hend
      obtain ⟨rfl, rfl⟩ := Prod.mk.inj (Except.ok.inj hrun)
      exact ⟨⟨[], none⟩, ⟨by simp, by simp [CommaList.items]⟩, rfl, by simp [CommaList.items],
        by simpa [CommaList.EndsBefore] using hend⟩
    rcases hitem : (item as).run src ts with error | ⟨s', mid⟩
    · rw [hitem] at hrun
      cases hrun
    rw [hitem] at hrun
    dsimp only at hrun
    split at hrun
    · rename_i hclose
      obtain ⟨rfl, rfl⟩ := Prod.mk.inj (Except.ok.inj hrun)
      obtain ⟨p, hp, rfl, rfl⟩ := (h.run_iff _ _ _ _ (.inr hclose)).mp hitem
      refine ⟨⟨[], some p⟩, ⟨by simp, ?_⟩, ?_, by simp [CommaList.items], .inl hclose⟩
      · simpa [CommaList.items] using hp
      · simp [CommaList.parts, CommaList.closedParts]
    cases mid with
    | nil => cases hrun
    | cons comma more =>
      dsimp only at hrun
      split at hrun
      case isFalse => cases hrun
      rename_i hcomma
      obtain ⟨p, hp, rfl, rfl⟩ := (h.run_iff _ _ _ (comma :: more) (.inl hcomma)).mp hitem
      have hlength : more.length < n := by
        rw [← hn, List.length_append, List.length_cons]
        omega
      obtain ⟨l, hl, rfl, rfl, hend⟩ := ih _ hlength hrun rfl
      refine ⟨⟨(p, comma) :: l.closed, l.last⟩, ⟨?_, ?_⟩, ?_, ?_, hend⟩
      · simpa [hcomma] using hl.comma
      · simpa [CommaList.items, hp] using hl.items
      · simp [CommaList.parts, CommaList.closedParts]
      · simp [CommaList.items]

end ReadsItems

end Lists

section Items

variable {allowMut : Bool} {openBrace : Token} {rule : ListRule}

lemma run_groupEntry (openBrace : Token) (allowMut : Bool) (as : List Entry) (src : Source)
    (ts : List Token) :
    (groupEntry openBrace allowMut as).run src ts =
      if (ts.headD src.eof).kind = .eof then .error (.fault .groupNotClosed openBrace.position)
      else if (ts.headD src.eof).kind = .openBrace then
        .error (.fault .groupNested (ts.headD src.eof).position)
      else
        match (entry [.comma, .closeBrace] true allowMut).run src ts with
        | .error error => .error error
        | .ok (e, rest) =>
          if (rest.headD src.eof).kind = .eof then
            .error (.fault .groupNotClosed openBrace.position)
          else .ok (as ++ [e], rest) := by
  rw [groupEntry, run_current_bind]
  by_cases heof : (ts.headD src.eof).kind = .eof
  · rw [if_pos heof, if_pos heof]
    rfl
  rw [if_neg heof, if_neg heof]
  by_cases hopen : (ts.headD src.eof).kind = .openBrace
  · rw [if_pos hopen, if_pos hopen]
    rfl
  rw [if_neg hopen, if_neg hopen]
  dsimp only
  rw [run_bind]
  rcases (entry [.comma, .closeBrace] true allowMut).run src ts with error | ⟨e, rest⟩
  · rfl
  dsimp only
  rw [run_current_bind]
  by_cases hend : (rest.headD src.eof).kind = .eof
  · rw [if_pos hend, if_pos hend]
    rfl
  · rw [if_neg hend, if_neg hend]
    rfl

lemma readsItems_groupEntry (heof : src.eof.kind = .eof) :
    ReadsItems src (groupEntry openBrace allowMut) EntryPhrase.parts
      (EntryPhrase.entry Token.value src.text)
      (EntryPhrase.IsWellFormed src.host [.comma, .closeBrace] true allowMut) .closeBrace
      (fun _ => false) where
  close_ne_comma := by decide
  start p hp := by
    have hstarts : ∀ kind ∈ TokenKind.entryStarts, kind ≠ .closeBrace := by decide
    obtain ⟨t, more, htokens, hstart⟩ := hp.exists_tokens
    exact ⟨t, more, htokens, hstarts _ hstart, rfl⟩
  run_iff as as' ts rest hnext := by
    have hstarts : ∀ kind ∈ TokenKind.entryStarts, kind ≠ .eof ∧ kind ≠ .openBrace := by decide
    have hmem : (rest.headD src.eof).kind ∈ [TokenKind.comma, .closeBrace] := by simpa using hnext
    have hrest : (rest.headD src.eof).kind ≠ .eof := by
      intro hkind
      rw [hkind] at hmem
      exact absurd hmem (by decide)
    have hentry {e : Entry} :
        (entry [.comma, .closeBrace] true allowMut).run src ts = .ok (e, rest) ↔ _ :=
      run_entry_iff (by decide) hmem heof
    rw [run_groupEntry]
    constructor
    · intro h
      split at h
      · cases h
      split at h
      · cases h
      rcases hrun : (entry [.comma, .closeBrace] true allowMut).run src ts with error | ⟨e, rest'⟩
      · rw [hrun] at h
        cases h
      rw [hrun] at h
      dsimp only at h
      split at h
      · cases h
      obtain ⟨rfl, rfl⟩ := Prod.mk.inj (Except.ok.inj h)
      obtain ⟨p, hp, hts, rfl⟩ := hentry.mp hrun
      exact ⟨p, hp, hts, rfl⟩
    · rintro ⟨p, hp, hts, rfl⟩
      obtain ⟨t, more, htokens, hstart⟩ := hp.exists_tokens
      have hfirst : ts.headD src.eof = t := by
        have htokens' : p.parts.map Prod.snd = t :: more := htokens
        rw [hts, htokens']
        rfl
      rw [hfirst, if_neg (hstarts _ hstart).1, if_neg (hstarts _ hstart).2,
        hentry.mpr ⟨p, hp, hts, rfl⟩]
      exact if_neg hrest

lemma run_item (rule : ListRule) (items : List Item) (src : Source) (ts : List Token) :
    (item rule items).run src ts =
      if (ts.headD src.eof).kind = .eof then
        .error (.fault .listNotClosed (ts.headD src.eof).position)
      else if (ts.headD src.eof).kind = .openBrace then
        (group rule >>= fun g => pure (items ++ [Item.group g])).run src ts
      else if (ts.headD src.eof).kind.isCloser then
        .error (.fault (.unbalanced (ts.headD src.eof).value) (ts.headD src.eof).position)
      else
        (entry [.comma, rule.close] false rule.allowMut >>= fun e =>
          pure (items ++ [Item.entry e])).run src ts := by
  rw [item, run_current_bind]
  split_ifs <;> rfl

variable (hclose : rule.close = .closeBrace ∨ rule.close = .eof) (heof : src.eof.kind = .eof)

include hclose heof

section

variable (hnext : (rest.headD src.eof).kind ∈ [.comma, rule.close])

include hnext

lemma run_group_of_isWellFormed {p : GroupPhrase} (hp : p.IsWellFormed src.host rule) :
    (group rule).run src (p.tokens ++ rest) = .ok (p.group Token.value src.text, rest) := by
  have hgreater : .greater ∉ [.comma, rule.close] := by
    rcases hclose with h | h <;> rw [h] <;> decide
  have hentries : (separated .closeBrace (fun _ => false) .fieldSeparator
      (groupEntry p.openBrace rule.allowMut) []).run src
        ((p.entries.parts EntryPhrase.parts).map Prod.snd ++
          p.closeBrace :: p.wordIn :: (p.source ++ rest)) =
      .ok ([] ++ p.entries.items.map (EntryPhrase.entry Token.value src.text),
        p.closeBrace :: p.wordIn :: (p.source ++ rest)) :=
    (readsItems_groupEntry heof).run_separated_of_isWellFormed hp.entries (.inl hp.closeBrace)
  have hsource : (capture { stops := [.comma, rule.close], sought := .groupSource }).run src
      (p.source ++ rest) = .ok (.ofTokens src.text p.source, rest) :=
    (run_capture_iff hgreater hnext).mpr ⟨p.source, hp.source, rfl, rfl⟩
  have htokens : p.tokens ++ rest =
      p.openBrace :: ((p.entries.parts EntryPhrase.parts).map Prod.snd ++
        p.closeBrace :: p.wordIn :: (p.source ++ rest)) := by
    simp [GroupPhrase.tokens_eq]
  have hne : ¬([] ++ p.entries.items.map (EntryPhrase.entry Token.value src.text)).isEmpty := by
    simpa using hp.entries_ne_nil
  rw [htokens, group, run_advance_bind, List.drop_succ_cons, List.drop_zero, List.headD_cons,
    run_bind, hentries]
  dsimp only
  rw [run_skip_bind, if_neg hne, List.drop_succ_cons, List.drop_zero, run_current_bind,
    List.headD_cons, if_pos hp.wordIn, run_skip_bind, List.drop_succ_cons, List.drop_zero,
    run_bind, hsource]
  rfl

lemma exists_phrase_of_run_group {g : Group} (hopen : (ts.headD src.eof).kind = .openBrace)
    (h : (group rule).run src ts = .ok (g, rest)) :
    ∃ p : GroupPhrase, p.IsWellFormed src.host rule ∧ ts = p.tokens ++ rest ∧
      g = p.group Token.value src.text := by
  have hgreater : .greater ∉ [.comma, rule.close] := by
    rcases hclose with h | h <;> rw [h] <;> decide
  obtain ⟨openBrace, more, rfl, hkind⟩ := exists_cons_of_headD (by rw [heof]; decide) hopen
  rw [group, run_advance_bind, List.drop_succ_cons, List.drop_zero, List.headD_cons] at h
  obtain ⟨entries, mid, hentries, h⟩ := exists_of_run_bind h
  obtain ⟨l, hl, rfl, rfl, hend⟩ :=
    (readsItems_groupEntry heof).exists_list_of_run_separated hentries
  have hcloseBrace : (mid.headD src.eof).kind = .closeBrace := by
    rcases hend with h | ⟨h, -⟩
    · exact h
    · cases h
  obtain ⟨closeBrace, mid, rfl, hcloseBrace⟩ :=
    exists_cons_of_headD (by rw [heof]; decide) hcloseBrace
  rw [run_skip_bind, List.drop_succ_cons, List.drop_zero] at h
  split at h
  · cases h
  rename_i hne
  rw [run_current_bind] at h
  split at h
  case isFalse => cases h
  rename_i hin
  obtain ⟨wordIn, mid, rfl, hin⟩ := exists_cons_of_headD (by rw [heof]; decide) hin
  rw [run_skip_bind, List.drop_succ_cons, List.drop_zero] at h
  obtain ⟨source, last, hsource, h⟩ := exists_of_run_bind h
  obtain ⟨rfl, rfl⟩ := eq_of_run_pure h
  obtain ⟨front, hfront, rfl, rfl⟩ := (run_capture_iff hgreater hnext).mp hsource
  refine ⟨⟨openBrace, l, closeBrace, wordIn, front⟩,
    ⟨hkind, hl, by simpa using hne, hcloseBrace, hin, hfront⟩, ?_, rfl⟩
  simp [GroupPhrase.tokens_eq]

/-- A group that ends before a comma or the end of the list is read from the tokens of its
phrases. -/
lemma run_group_iff {g : Group} (hopen : (ts.headD src.eof).kind = .openBrace) :
    (group rule).run src ts = .ok (g, rest) ↔
      ∃ p : GroupPhrase, p.IsWellFormed src.host rule ∧ ts = p.tokens ++ rest ∧
        g = p.group Token.value src.text := by
  refine ⟨exists_phrase_of_run_group hclose heof hnext hopen, ?_⟩
  rintro ⟨p, hp, rfl, rfl⟩
  exact run_group_of_isWellFormed hclose heof hnext hp

end

lemma readsItems_item :
    ReadsItems src (item rule) ItemPhrase.parts (ItemPhrase.item Token.value src.text)
      (ItemPhrase.IsWellFormed src.host rule) rule.close (· == .dotDot) where
  close_ne_comma := by
    rcases hclose with h | h <;> rw [h] <;> decide
  start p hp := by
    have hstarts : ∀ kind ∈ TokenKind.openBrace :: TokenKind.entryStarts,
        kind ≠ .closeBrace ∧ kind ≠ .eof ∧ kind ≠ .dotDot := by decide
    obtain ⟨t, more, htokens, hstart⟩ := hp.exists_tokens
    refine ⟨t, more, htokens, ?_, by simpa using (hstarts _ hstart).2.2⟩
    rcases hclose with h | h <;> rw [h]
    · exact (hstarts _ hstart).1
    · exact (hstarts _ hstart).2.1
  run_iff as as' ts rest hnext := by
    have hmem : (rest.headD src.eof).kind ∈ [.comma, rule.close] := by simpa using hnext
    have hstops : [.comma, rule.close] ⊆ [.comma, .closeBrace, .eof] := by
      rcases hclose with h | h <;> rw [h] <;> decide
    rw [run_item]
    constructor
    · intro h
      split at h
      · cases h
      split at h
      · rename_i hopen
        obtain ⟨g, mid, hgroup, h⟩ := exists_of_run_bind h
        obtain ⟨rfl, rfl⟩ := eq_of_run_pure h
        obtain ⟨p, hp, hts, rfl⟩ := (run_group_iff hclose heof hmem hopen).mp hgroup
        exact ⟨.group p, hp, hts, rfl⟩
      split at h
      · cases h
      obtain ⟨e, mid, hentry, h⟩ := exists_of_run_bind h
      obtain ⟨rfl, rfl⟩ := eq_of_run_pure h
      obtain ⟨p, hp, hts, rfl⟩ := (run_entry_iff hstops hmem heof).mp hentry
      exact ⟨.entry p, hp, hts, rfl⟩
    · rintro ⟨p, hp, hts, rfl⟩
      cases p with
      | entry p =>
        have hstarts : ∀ kind ∈ TokenKind.entryStarts,
            kind ≠ .eof ∧ kind ≠ .openBrace ∧ kind.isCloser = false := by decide
        obtain ⟨t, more, htokens, hstart⟩ := EntryPhrase.IsWellFormed.exists_tokens hp
        have hfirst : ts.headD src.eof = t := by
          rw [hts]
          change (p.tokens ++ rest).headD src.eof = t
          rw [htokens]
          rfl
        obtain ⟨hend, hopen, hcloser⟩ := hstarts _ hstart
        rw [hfirst, if_neg hend, if_neg hopen, if_neg (by simp [hcloser]), run_bind,
          (run_entry_iff hstops hmem heof).mpr ⟨p, hp, hts, rfl⟩]
        rfl
      | group p =>
        have hfirst : (ts.headD src.eof).kind = .openBrace := by
          rw [hts]
          exact GroupPhrase.IsWellFormed.openBrace hp
        rw [if_neg (by rw [hfirst]; decide), if_pos hfirst, run_bind,
          (run_group_iff hclose heof hmem hfirst).mpr ⟨p, hp, hts, rfl⟩]
        rfl

/-- A base is read up to the end of the list. -/
lemma run_base_iff {base? : Option Expression} (hnext : (rest.headD src.eof).kind = rule.close) :
    (base rule).run src ts = .ok (base?, rest) ↔
      ∃ phrase : Option (Token × List Token),
        (∀ b ∈ phrase, rule.allowBase ∧ b.1.kind = .dotDot ∧
          CaptureRule.Admits { stops := [.comma, rule.close], sought := .base } b.2) ∧
        ts = (phrase.elim [] fun b => b.1 :: b.2) ++ rest ∧
        base? = phrase.map fun b => .ofTokens src.text b.2 := by
  have hgreater : .greater ∉ [.comma, rule.close] := by
    rcases hclose with h | h <;> rw [h] <;> decide
  have hmem : (rest.headD src.eof).kind ∈ [.comma, rule.close] := by
    rw [hnext]
    exact List.mem_cons_of_mem _ List.mem_cons_self
  have hends : (rest.headD src.eof).kind ≠ .dotDot ∧ (rest.headD src.eof).kind ≠ .comma := by
    rw [hnext]
    rcases hclose with h | h <;> rw [h] <;> decide
  rw [base, run_current_bind]
  constructor
  · intro h
    split at h
    · rename_i hdot
      obtain ⟨dot, more, rfl, hdot⟩ := exists_cons_of_headD (by rw [heof]; decide) hdot
      split at h
      case isFalse => cases h
      rename_i hallowed
      rw [run_skip_bind, List.drop_succ_cons, List.drop_zero] at h
      obtain ⟨e, mid, hcapture, h⟩ := exists_of_run_bind h
      rw [run_current_bind] at h
      split at h
      · cases h
      obtain ⟨rfl, rfl⟩ := eq_of_run_pure h
      obtain ⟨front, hfront, rfl, rfl⟩ := (run_capture_iff hgreater hmem).mp hcapture
      exact ⟨some (dot, front), by rintro b ⟨⟩; exact ⟨hallowed, hdot, hfront⟩, rfl, rfl⟩
    · obtain ⟨rfl, rfl⟩ := eq_of_run_pure h
      exact ⟨none, by simp, rfl, rfl⟩
  · rintro ⟨phrase, hphrase, rfl, rfl⟩
    cases phrase with
    | none =>
      refine (congrArg (Parser.run · src rest) (if_neg hends.1)).trans ?_
      rfl
    | some b =>
      obtain ⟨hallowed, hdot, hbase⟩ := hphrase b rfl
      have hcapture : (capture { stops := [.comma, rule.close], sought := .base }).run src
          (b.2 ++ rest) = .ok (.ofTokens src.text b.2, rest) :=
        (run_capture_iff hgreater hmem).mpr ⟨b.2, hbase, rfl, rfl⟩
      have htokens : ((some b).elim [] fun b => b.1 :: b.2) ++ rest = b.1 :: (b.2 ++ rest) := rfl
      rw [htokens, List.headD_cons, if_pos hdot, if_pos hallowed, run_skip_bind,
        List.drop_succ_cons, List.drop_zero, run_bind, hcapture]
      dsimp only
      rw [run_current_bind, if_neg hends.2]
      rfl

/-- A field list is read up to its end from the tokens of its phrases. -/
lemma run_fieldList_iff {c : Composition} (hnext : (rest.headD src.eof).kind = rule.close) :
    (fieldList rule).run src ts = .ok (c, rest) ↔
      ∃ p : ListPhrase, p.IsWellFormed src.host rule ∧ ts = p.tokens ++ rest ∧
        c = p.composition Token.value src.text := by
  have hdot : rule.close ≠ .dotDot := by
    rcases hclose with h | h <;> rw [h] <;> decide
  constructor
  · intro h
    obtain ⟨items, mid, hitems, h⟩ := exists_of_run_bind h
    obtain ⟨base?, last, hbase, h⟩ := exists_of_run_bind h
    obtain ⟨rfl, rfl⟩ := eq_of_run_pure h
    obtain ⟨l, hl, rfl, rfl, hend⟩ :=
      (readsItems_item hclose heof).exists_list_of_run_separated hitems
    obtain ⟨phrase, hphrase, rfl, rfl⟩ := (run_base_iff hclose heof hnext).mp hbase
    refine ⟨⟨l, phrase⟩, ⟨hl, fun b hb => ?_⟩, ?_, rfl⟩
    · obtain ⟨hallowed, hkind, hadmits⟩ := hphrase b hb
      obtain rfl : phrase = some b := hb
      rcases hend with hend | ⟨-, hlast⟩
      · exact absurd (hend.symm.trans hkind) hdot
      · exact ⟨hallowed, hlast, hkind, hadmits⟩
    · rw [ListPhrase.tokens_eq, List.append_assoc]
  · rintro ⟨p, hp, rfl, rfl⟩
    have hend : p.items.EndsBefore rule.close (· == .dotDot)
        ((((p.base.elim [] fun b => b.1 :: b.2) ++ rest).headD src.eof).kind) := by
      cases hbase : p.base with
      | none => exact .inl hnext
      | some b =>
        obtain ⟨-, hlast, hkind, -⟩ := hp.base b hbase
        exact .inr ⟨by simp [hkind], hlast⟩
    have hitems : (separated rule.close (· == .dotDot) .fieldSeparator (item rule) []).run src
        (p.tokens ++ rest) = .ok ([] ++ p.items.items.map (ItemPhrase.item Token.value src.text),
          (p.base.elim [] fun b => b.1 :: b.2) ++ rest) := by
      rw [ListPhrase.tokens_eq, List.append_assoc]
      exact (readsItems_item hclose heof).run_separated_of_isWellFormed hp.items hend
    have hbase : (base rule).run src ((p.base.elim [] fun b => b.1 :: b.2) ++ rest) =
        .ok (p.base.map fun b => .ofTokens src.text b.2, rest) :=
      (run_base_iff hclose heof hnext).mpr ⟨p.base, fun b hb =>
        ⟨(hp.base b hb).1, (hp.base b hb).2.2.1, (hp.base b hb).2.2.2⟩, rfl, rfl⟩
    rw [fieldList, run_bind, hitems]
    dsimp only
    rw [run_bind, hbase]
    rfl

end Items

end Parser

end FieldComposition
