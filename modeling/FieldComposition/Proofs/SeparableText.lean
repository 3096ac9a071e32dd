import FieldComposition.Emission.Record
import FieldComposition.Proofs.EnclosedCommas
import FieldComposition.Proofs.TokenReading

/-!
# Separable text

A text is `Separable` if it reads as one argument of a call at any depth of indentation: its
brackets are closed in it, and no comma stands outside of them. Text that starts and ends with a
token is separable if the kinds of its tokens are enclosed, and words, quoted text, calls and
keywords that are made of separable texts are separable.
-/

namespace FieldComposition

lemma Enclosed.inert {commas : Bool} {depth : Nat} {kind : TokenKind} {kinds : List TokenKind}
    (hkind : kind.IsInert) (hrest : Enclosed commas depth kinds) :
    Enclosed commas depth (kind :: kinds) :=
  .plain hkind.isOpener_eq hkind.isCloser_eq (fun _ hcomma => absurd hcomma hkind.ne_comma) hrest

lemma Enclosed.of_inert {commas : Bool} {depth : Nat} {kind : TokenKind} {kinds : List TokenKind}
    (hkind : kind.IsInert) (h : Enclosed commas depth (kind :: kinds)) :
    Enclosed commas depth kinds := by
  cases h with
  | opener hopener _ =>
    rw [hkind.isOpener_eq] at hopener
    cases hopener
  | closer hcloser _ =>
    rw [hkind.isCloser_eq] at hcloser
    cases hcloser
  | plain _ _ _ hrest => exact hrest

lemma Enclosed.of_forall {commas : Bool} {kinds : List TokenKind}
    (h : ∀ kind ∈ kinds, kind.IsInert) : Enclosed commas 0 kinds := by
  induction kinds with
  | nil => exact .nil
  | cons kind kinds ih =>
    exact .inert (h kind List.mem_cons_self) (ih fun k hk => h k (List.mem_cons_of_mem _ hk))

namespace Lexes

variable {host : Host} {commas : Bool} {c : Char} {cs more : List Char} {parts : List Stretch}

/-- The text of one token. -/
lemma token {taken : List Char} {kind : TokenKind}
    (h : Lexeme.read host c (taken ++ more) = .ok ⟨some kind, taken.length⟩) :
    Lexes host more (c :: taken) [⟨some kind, c :: taken⟩] := by
  have hlexes : Lexes host more (c :: (taken ++ [])) [⟨some kind, c :: taken⟩] :=
    .cons h .nil
  rwa [List.append_nil] at hlexes

lemma word (h : Text.IsWord cs) (hmore : ∀ d ∈ more.head?, Text.isWordChar d = false) :
    ∃ kind : TokenKind, kind.IsInert ∧ Lexes (.dialect .python) more cs [⟨some kind, cs⟩] := by
  obtain ⟨c, cs, rfl⟩ := List.exists_cons_of_ne_nil h.ne_nil
  exact ⟨_, Lexeme.isInert_wordKind _, token (Lexeme.read_word h hmore)⟩

lemma mark {kind : TokenKind} (h : (c, kind) ∈ Lexeme.marks) :
    Lexes (.dialect .python) more [c] [⟨some kind, [c]⟩] := by
  have hread : Lexeme.read (.dialect .python) c ([] ++ more) =
      .ok ⟨some kind, ([] : List Char).length⟩ := Lexeme.read_mark h
  exact token hread

/-- A comparison sign before a text goes on with the operator at the front of it, if there is one,
but only as far as there are more such signs; all of them are inert. By induction on the text. -/
lemma comparison_append (hc : Lexeme.isComparison c) (h : Lexes (.dialect .python) more cs parts)
    (hmore : ∀ d ∈ more.head?, Lexeme.isComparison d = false)
    (hparts : Enclosed commas 0 (Stretch.kinds parts)) (hends : Stretch.EndsInToken parts) :
    ∃ parts', Lexes (.dialect .python) more (c :: cs) parts' ∧
      Enclosed commas 0 (Stretch.kinds parts') ∧ Stretch.EndsInToken parts' := by
  induction h generalizing c with
  | nil =>
    obtain ⟨kind, hkind, hread⟩ := Lexeme.read_comparison_alone hc hmore
    have htoken : Lexes (.dialect .python) more (c :: []) _ := token hread
    exact ⟨_, htoken, .inert hkind .nil, hends.cons fun _ => rfl⟩
  | @cons d taken rest kind? parts hread hrest ih =>
    by_cases hd : Lexeme.isComparison d
    · obtain ⟨kind, hkind, hfirst⟩ : ∃ kind, kind.IsInert ∧ Lexeme.read (.dialect .python) c
          (d :: (taken ++ rest ++ more)) = .ok ⟨some kind, 1⟩ := Lexeme.read_comparison hc hd
      by_cases hnext : ∃ e ∈ (taken ++ (rest ++ more)).head?, Lexeme.isComparison e
      · -- The operator at the front of the text has two characters, of which one is left.
        obtain ⟨e, he, hcomparison⟩ := hnext
        obtain ⟨tail, htail⟩ := List.head?_eq_some_iff.mp he
        obtain ⟨kind', hkind', hsecond⟩ : ∃ kind', kind'.IsInert ∧ Lexeme.read (.dialect .python) d
            (e :: tail) = .ok ⟨some kind', 1⟩ := Lexeme.read_comparison hd hcomparison
        rw [htail, hsecond] at hread
        obtain ⟨rfl, hlength⟩ := Lexeme.mk.inj (Except.ok.inj hread)
        obtain ⟨e', rfl⟩ := List.length_eq_one_iff.mp hlength.symm
        obtain rfl : e' = e := (List.cons.inj htail).1
        rw [Stretch.kinds_cons] at hparts
        obtain ⟨parts', hlexes, henclosed, hends'⟩ := ih hcomparison (hparts.of_inert hkind')
          hends.of_cons
        have hlexes' : Lexes (.dialect .python) more (c :: ([d] ++ e' :: rest)) _ :=
          .cons hfirst hlexes
        exact ⟨_, hlexes', .inert hkind henclosed, hends'.cons fun _ => rfl⟩
      · have hnone : ∀ e ∈ (taken ++ (rest ++ more)).head?, Lexeme.isComparison e = false := by
          intro e he
          by_contra hcomparison
          exact hnext ⟨e, he, by simpa using hcomparison⟩
        obtain ⟨kind', hkind', hsecond⟩ := Lexeme.read_comparison_alone hd hnone
        rw [hsecond] at hread
        obtain ⟨rfl, hlength⟩ := Lexeme.mk.inj (Except.ok.inj hread)
        obtain rfl := List.length_eq_zero_iff.mp hlength.symm
        rw [Stretch.kinds_cons] at hparts
        have hlexes' : Lexes (.dialect .python) more (c :: ([d] ++ rest)) _ := .cons hfirst hrest
        exact ⟨_, hlexes', .inert hkind (hparts.of_inert hkind'), hends.of_cons.cons fun _ => rfl⟩
    · obtain ⟨kind, hkind, halone⟩ : ∃ kind, kind.IsInert ∧ Lexeme.read (.dialect .python) c
          (d :: (taken ++ rest) ++ more) = .ok ⟨some kind, 0⟩ :=
        Lexeme.read_comparison_alone hc (by simpa using hd)
      have hlexes : Lexes (.dialect .python) more (c :: ([] ++ d :: (taken ++ rest))) _ :=
        .cons halone (.cons hread hrest)
      exact ⟨_, hlexes, .inert hkind hparts, hends.cons fun _ => rfl⟩

end Lexes

/-- A text that reads alike at any depth of indentation and before any delimiter. It starts and ends
with a token and closes the brackets that it opens. Unless `commas` is set no comma stands outside
of them. -/
structure Separable (commas : Bool) (cs : List Char) : Prop where
  endsInInk : Text.EndsInInk cs
  exists_lexes : ∀ n more, Lexeme.IsDelimited more → ∃ parts,
    Lexes (.dialect .python) more (Text.hang (List.replicate n ' ') cs) parts ∧
      Stretch.IsSolid parts ∧ Enclosed commas 0 (Stretch.kinds parts)

namespace Separable

variable {commas : Bool} {cs ds more : List Char} {parts : List Stretch}

/-- Text that starts and ends with a token is separable if its tokens are enclosed, wherever it was
read. -/
lemma of_lexes (h : Lexes (.dialect .python) more cs parts) (hsolid : Stretch.IsSolid parts)
    (hparts : Enclosed commas 0 (Stretch.kinds parts)) : Separable commas cs := by
  refine ⟨?_, fun n more' hmore' => ?_⟩
  · obtain ⟨front, last, rfl⟩ := (List.eq_nil_or_concat' parts).resolve_left hsolid.ne_nil
    obtain ⟨kind, hkind⟩ := Option.isSome_iff_exists.mp (hsolid.ends last (by simp))
    have hlast := h.split.2
    rw [← h.text_eq, Stretch.text_append]
    refine .append ?_
    generalize Stretch.text [last] = ds at hlast
    cases hlast with
    | @cons c taken rest kind? _ hread hrest =>
      cases hrest
      obtain rfl : kind? = some kind := hkind
      have hspells := Lexeme.spells_of_read hread
      rw [List.take_left] at hspells
      have hne : c :: taken ≠ [] := List.cons_ne_nil _ _
      have hgetLast := List.getLast?_eq_some_getLast hne
      rw [List.append_nil]
      exact ⟨_, hgetLast, hspells.last_not_blank _ hgetLast⟩
  · obtain ⟨parts', hlexes, hkinds, hends, hstarts⟩ :=
      h.padded hsolid.ends hmore' (Text.padded_hang n cs)
    refine ⟨parts', hlexes, ⟨?_, fun s' hs' => ?_, hends⟩, by rwa [hkinds]⟩
    · rintro rfl
      exact hsolid.ends.kinds_ne_nil hsolid.ne_nil hkinds.symm
    · obtain ⟨s, hs, hkind⟩ := hstarts s' hs'
      rw [hkind]
      exact hsolid.starts s hs

lemma weaken (h : Separable commas cs) : Separable true cs := by
  refine ⟨h.endsInInk, fun n more hmore => ?_⟩
  obtain ⟨parts, hlexes, hsolid, hparts⟩ := h.exists_lexes n more hmore
  exact ⟨parts, hlexes, hsolid, hparts.weaken⟩

/-- Text on one line is separable if it is read as tokens that are enclosed. -/
lemma of_line (hends : Text.EndsInInk cs) (hline : ∀ c ∈ cs, Text.isLineEnd c = false)
    (h : ∀ more, Lexeme.IsDelimited more → ∃ parts, Lexes (.dialect .python) more cs parts ∧
      Stretch.IsSolid parts ∧ Enclosed commas 0 (Stretch.kinds parts)) : Separable commas cs := by
  refine ⟨hends, fun n more hmore => ?_⟩
  rw [Text.hang_eq_self hline]
  exact h more hmore

lemma word (h : Text.IsWord cs) : Separable commas cs := by
  have hink := h.isBlank_eq_false
  refine of_line (.of_forall h.ne_nil hink)
    (fun c hc => Text.isLineEnd_eq_false_of_ink (hink c hc)) fun more hmore => ?_
  obtain ⟨kind, hkind, hlexes⟩ := Lexes.word h hmore.not_isWordChar
  exact ⟨_, hlexes, ⟨by simp, by simp, by simp [Stretch.EndsInToken]⟩, .inert hkind .nil⟩

/-- A field of a value that a word names. -/
lemma dotted (h : Text.IsWord cs) (h' : Text.IsWord ds) : Separable commas (cs ++ '.' :: ds) := by
  have hink : ∀ c ∈ cs ++ '.' :: ds, Text.isBlank c = false := by
    intro c hc
    rcases List.mem_append.mp hc with hc | hc
    · exact h.isBlank_eq_false c hc
    rcases List.mem_cons.mp hc with rfl | hc
    · decide
    · exact h'.isBlank_eq_false c hc
  refine of_line (.of_forall (by simp) hink)
    (fun c hc => Text.isLineEnd_eq_false_of_ink (hink c hc)) fun more hmore => ?_
  obtain ⟨d, ds, rfl⟩ := List.exists_cons_of_ne_nil h'.ne_nil
  have hd : d ≠ '.' := by
    rintro rfl
    exact Text.not_mem_wordBreaks (h'.isWordChar '.' List.mem_cons_self) (by decide)
  obtain ⟨kind, hkind, hfield⟩ := Lexes.word h' hmore.not_isWordChar
  have hread : Lexeme.read (.dialect .python) '.' ([] ++ (d :: ds ++ more)) =
      .ok ⟨some .dot, ([] : List Char).length⟩ := Lexeme.read_dot (by simpa using hd)
  have hdot : Lexes (.dialect .python) more ('.' :: ([] ++ d :: ds)) _ := .cons hread hfield
  have hbehind : ∀ e ∈ ('.' :: ([] ++ d :: ds) ++ more).head?, Text.isWordChar e = false := by
    intro e he
    obtain rfl : '.' = e := Option.some.inj he
    exact Text.isWordChar_eq_false (by decide)
  obtain ⟨kind', hkind', howner⟩ := Lexes.word h hbehind
  exact ⟨_, howner.append hdot, ⟨by simp, by simp, by simp [Stretch.EndsInToken]⟩,
    .inert hkind' (.inert ⟨rfl, rfl, by decide⟩ (.inert hkind .nil))⟩

lemma quoted (cs : List Char) : Separable commas (Text.quotedChars cs) := by
  have hquote : Text.quoteFor cs = '"' ∨ Text.quoteFor cs = '\'' := by
    unfold Text.quoteFor
    split
    · exact .inl rfl
    · exact .inr rfl
  have hends : Text.EndsInInk (Text.quotedChars cs) := by
    have hlast : Text.EndsInInk [Text.quoteFor cs] := by
      refine .of_forall (by simp) fun c hc => ?_
      rw [List.mem_singleton.mp hc]
      rcases hquote with hquote | hquote <;> rw [hquote] <;> decide
    exact hlast.append
  refine of_line hends ?_ fun more hmore => ?_
  · intro c hc
    rcases List.mem_cons.mp hc with rfl | hc
    · exact Lexeme.isLineEnd_quote hquote
    rcases List.mem_append.mp hc with hc | hc
    · obtain ⟨d, -, hd⟩ := List.mem_flatMap.mp hc
      exact Lexeme.isLineEnd_quotedChar hquote d c hd
    · rw [List.mem_singleton.mp hc]
      exact Lexeme.isLineEnd_quote hquote
  · obtain ⟨quote, taken, htext, hread⟩ := Lexeme.exists_read_quotedChars cs hmore
    rw [htext]
    exact ⟨_, Lexes.token hread, ⟨by simp, by simp, by simp [Stretch.EndsInToken]⟩,
      .inert ⟨rfl, rfl, by decide⟩ .nil⟩

/-- A call of a function with arguments. -/
lemma call (h : Separable commas cs) (h' : Separable true ds) :
    Separable commas (cs ++ '(' :: (ds ++ [')'])) := by
  have hopen : ∀ c ∈ ['('], Text.isLineEnd c = false := by decide
  have hclose : ∀ c ∈ [')'], Text.isLineEnd c = false := by decide
  have hends : Text.EndsInInk (('(' :: ds) ++ [')']) :=
    .append (.of_forall (by simp) (by decide))
  refine ⟨hends.append, fun n more hmore => ?_⟩
  have hhang : Text.hang (List.replicate n ' ') (cs ++ '(' :: (ds ++ [')'])) =
      Text.hang (List.replicate n ' ') cs ++
        (['('] ++ (Text.hang (List.replicate n ' ') ds ++ [')'])) := by
    have hmark : Text.hang (List.replicate n ' ') (['('] ++ (ds ++ [')'])) =
        ['('] ++ Text.hang (List.replicate n ' ') (ds ++ [')']) := Text.hang_margin_append hopen
    rw [Text.hang_append h.endsInInk, ← List.singleton_append, hmark,
      Text.hang_append h'.endsInInk, Text.hang_eq_self hclose]
  obtain ⟨callee, hcallee, hcalleeSolid, hcalleeKinds⟩ := h.exists_lexes n
    ('(' :: (Text.hang (List.replicate n ' ') ds ++ [')']) ++ more)
    (by simp [Lexeme.IsDelimited])
  obtain ⟨inner, hinner, -, hinnerKinds⟩ := h'.exists_lexes n ([')'] ++ more)
    (by simp [Lexeme.IsDelimited])
  have hlast : Lexes (.dialect .python) more [')'] [⟨some .closeParen, [')']⟩] :=
    Lexes.mark (by decide)
  have hfirst : Lexes (.dialect .python) (Text.hang (List.replicate n ' ') ds ++ [')'] ++ more)
      ['('] [⟨some .openParen, ['(']⟩] := Lexes.mark (by decide)
  rw [hhang]
  refine ⟨_, hcallee.append (hfirst.append (hinner.append hlast)), ?_, ?_⟩
  · refine hcalleeSolid.append ⟨by simp, by simp, ?_⟩
    exact .append (.append (by simp [Stretch.EndsInToken]) (by simp)) (by simp)
  · simp only [Stretch.kinds_append, Stretch.kinds_cons, Stretch.kinds_nil, List.append_nil]
    have hbrackets : Enclosed commas 0 (.openParen :: (Stretch.kinds inner ++ [.closeParen])) :=
      hinnerKinds.bracketed
    exact hcalleeKinds.append hbrackets

/-- One more argument behind others. -/
lemma join (h : Separable true cs) (h' : Separable commas ds) :
    Separable true (cs ++ ',' :: ' ' :: ds) := by
  have hcomma : ∀ c ∈ [',', ' '], Text.isLineEnd c = false := by decide
  have hends : Text.EndsInInk ([',', ' '] ++ ds) := h'.endsInInk.append
  refine ⟨hends.append, fun n more hmore => ?_⟩
  have hhang : Text.hang (List.replicate n ' ') (cs ++ ',' :: ' ' :: ds) =
      Text.hang (List.replicate n ' ') cs ++
        ([','] ++ (List.replicate 1 ' ' ++ Text.hang (List.replicate n ' ') ds)) := by
    have hmark : Text.hang (List.replicate n ' ') ([',', ' '] ++ ds) =
        [',', ' '] ++ Text.hang (List.replicate n ' ') ds := Text.hang_margin_append hcomma
    rw [Text.hang_append h.endsInInk]
    exact congrArg _ hmark
  obtain ⟨second, hsecond, hsecondSolid, hsecondKinds⟩ := h'.exists_lexes n more hmore
  obtain ⟨gaps, hgaps, hspaced⟩ := Lexes.spaces_append 1 hsecond
  obtain ⟨first, hfirst, hfirstSolid, hfirstKinds⟩ := h.exists_lexes n
    ([','] ++ (List.replicate 1 ' ' ++ Text.hang (List.replicate n ' ') ds) ++ more)
    (by simp [Lexeme.IsDelimited])
  have hmark : Lexes (.dialect .python)
      (List.replicate 1 ' ' ++ Text.hang (List.replicate n ' ') ds ++ more) [',']
      [⟨some .comma, [',']⟩] := Lexes.mark (by decide)
  rw [hhang]
  refine ⟨_, hfirst.append (hmark.append hspaced), ?_, ?_⟩
  · refine hfirstSolid.append ⟨by simp, by simp, ?_⟩
    exact .append (.append hsecondSolid.ends hsecondSolid.ne_nil) (by simp [hsecondSolid.ne_nil])
  · simp only [Stretch.kinds_append, hgaps, Stretch.kinds_cons, Stretch.kinds_nil,
      List.append_nil, List.nil_append]
    exact hfirstKinds.append (.plain rfl rfl (fun _ _ => rfl) hsecondKinds.weaken)

/-- The text of an argument that a word names. -/
lemma keyword (h : Text.IsWord cs) (h' : Separable commas ds) :
    Separable commas (cs ++ '=' :: ds) := by
  have hword : ∀ c ∈ cs ++ ['='], Text.isLineEnd c = false := by
    intro c hc
    rcases List.mem_append.mp hc with hc | hc
    · exact Text.isLineEnd_eq_false_of_ink (h.isBlank_eq_false c hc)
    · rw [List.mem_singleton.mp hc]
      decide
  have hink : Text.EndsInInk (['='] ++ ds) := h'.endsInInk.append
  refine ⟨hink.append, fun n more hmore => ?_⟩
  have hhang : Text.hang (List.replicate n ' ') (cs ++ '=' :: ds) =
      cs ++ '=' :: Text.hang (List.replicate n ' ') ds := by
    have hinner : Text.hang (List.replicate n ' ') ((cs ++ ['=']) ++ ds) =
        (cs ++ ['=']) ++ Text.hang (List.replicate n ' ') ds := Text.hang_margin_append hword
    rwa [List.append_assoc, List.append_assoc] at hinner
  obtain ⟨value, hvalue, hsolid, hkinds⟩ := h'.exists_lexes n more hmore
  obtain ⟨behind, hbehind, hbehindKinds, hends⟩ := Lexes.comparison_append (c := '=') (by decide)
    hvalue (hmore.forall_head (by decide)) hkinds hsolid.ends
  have hmark : ∀ c ∈ ('=' :: Text.hang (List.replicate n ' ') ds ++ more).head?,
      Text.isWordChar c = false := by
    intro c hc
    obtain rfl : '=' = c := Option.some.inj hc
    exact Text.isWordChar_eq_false (by decide)
  obtain ⟨kind, hkind, hname⟩ := Lexes.word h hmark
  have hne : behind ≠ [] := by
    rintro rfl
    cases hbehind.text_eq
  rw [hhang]
  refine ⟨_, hname.append hbehind, ⟨by simp, by simp, hends.append hne⟩, ?_⟩
  exact .inert hkind hbehindKinds

end Separable

end FieldComposition
