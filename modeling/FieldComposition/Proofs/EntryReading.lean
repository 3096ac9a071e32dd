import FieldComposition.Proofs.Phrase
import FieldComposition.Proofs.BracedFieldList
import FieldComposition.Proofs.MoreNames

/-!
# Phrases of entries are what is read as entries

An entry that ends before one of its stops is read from exactly the tokens of the well-formed
phrases, and it is the entry that the phrase stands for (`Parser.run_entry_iff`). The parts of an
entry are read in the same way, each before a token that may follow it.
-/

namespace FieldComposition

open Role (signs)

/-- No name is the first sign of a modifier. -/
lemma Host.kind_of_isName {host : Host} {kind : TokenKind} (h : host.isName kind) :
    kind ≠ .amp ∧ kind ≠ .plus ∧ kind ≠ .greater ∧ kind ≠ .openBracket ∧
      kind.isModifierLike = false := by
  cases kind <;> simp_all [isName, TokenKind.isSoftKeyword, TokenKind.isModifierLike]

lemma Host.isSoftKeyword_of_isName {host : Host} {kind : TokenKind} (h : host.isName kind) :
    kind = .ident ∨ kind.isSoftKeyword := by
  simp only [isName, Bool.or_eq_true, beq_iff_eq, Bool.and_eq_true] at h
  exact h.imp_right And.right

lemma Modifier.Kind.ofSigns?_isSome {hasPath : Bool} {kinds : List TokenKind}
    (h : (ofSigns? hasPath kinds).isSome) :
    kinds ∈ [[], [.amp], [.amp, .wordMut]] ∨
      hasPath = false ∧ kinds ∈ [[.plus], [.plus, .greater], [.greater]] := by
  unfold ofSigns? at h
  split at h <;> simp_all

/-- A modifier is empty or starts with a sign or a bracket. -/
lemma ModifierPhrase.IsWellFormed.start {p : ModifierPhrase} (h : p.IsWellFormed) :
    p = {} ∨ ∃ t more, p.parts.map Prod.snd = t :: more ∧
      t.kind ∈ [.plus, .greater, .amp, .openBracket] := by
  obtain ⟨path, signs⟩ := p
  cases path with
  | some b =>
    have hopen := (h.path b rfl).openBracket
    exact .inr ⟨b.openBracket, _, rfl, by rw [hopen]; decide⟩
  | none =>
    cases signs with
    | nil => exact .inl rfl
    | cons t more =>
      have hsigns := Modifier.Kind.ofSigns?_isSome h.kind
      refine .inr ⟨t, more, by simp [parts], ?_⟩
      have hkind : t.kind = .amp ∨ t.kind = .plus ∨ t.kind = .greater := by
        simp at hsigns
        tauto
      rcases hkind with hkind | hkind | hkind <;> rw [hkind] <;> decide

/-- Behind its mark an entry starts with its modifier or its name. -/
lemma EntryPhrase.IsWellFormed.start {host : Host} {stops : List TokenKind}
    {inGroup allowMut : Bool} {p : EntryPhrase} (h : p.IsWellFormed host stops inGroup allowMut) :
    ∃ t more, p.modifier.parts.map Prod.snd ++ p.name :: p.tail.parts.map Prod.snd = t :: more ∧
      (t.kind ∈ [.plus, .greater, .amp, .openBracket] ∨
        p.modifier = {} ∧ t = p.name ∧ more = p.tail.parts.map Prod.snd) := by
  rcases h.modifier.start with hnone | ⟨t, more, hparts, hkind⟩
  · rw [hnone]
    exact ⟨p.name, _, rfl, .inr ⟨rfl, rfl, rfl⟩⟩
  · rw [hparts]
    exact ⟨t, _, rfl, .inl hkind⟩

/-- The kinds of tokens that an entry may start with. -/
def TokenKind.entryStarts : List TokenKind :=
  [.plus, .greater, .amp, .openBracket, .ident, .wordMut, .wordFn, .wordStruct, .wordWhere,
    .wordPub]

lemma Host.mem_entryStarts_of_isName {host : Host} {kind : TokenKind} (h : host.isName kind) :
    kind ∈ TokenKind.entryStarts := by
  cases kind <;> simp_all [isName, TokenKind.isSoftKeyword, TokenKind.entryStarts]

lemma EntryPhrase.IsWellFormed.start_mem {host : Host} {stops : List TokenKind}
    {inGroup allowMut : Bool} {p : EntryPhrase} (h : p.IsWellFormed host stops inGroup allowMut) :
    ∃ t more, p.modifier.parts.map Prod.snd ++ p.name :: p.tail.parts.map Prod.snd = t :: more ∧
      t.kind ∈ TokenKind.entryStarts := by
  obtain ⟨t, more, hparts, hkind | ⟨-, rfl, -⟩⟩ := h.start
  · exact ⟨t, more, hparts, List.mem_append_left _ hkind⟩
  · exact ⟨p.name, more, hparts, Host.mem_entryStarts_of_isName h.name⟩

lemma EntryPhrase.IsWellFormed.exists_tokens {host : Host} {stops : List TokenKind}
    {inGroup allowMut : Bool} {p : EntryPhrase} (h : p.IsWellFormed host stops inGroup allowMut) :
    ∃ t more, p.tokens = t :: more ∧ t.kind ∈ TokenKind.entryStarts := by
  rw [tokens_eq]
  cases hmark : p.mark with
  | none => exact h.start_mem
  | some t =>
    refine ⟨t, _, rfl, ?_⟩
    rw [(h.mark t hmark).1]
    decide

namespace Parser

variable {src : Source} {ts rest : List Token}

section Steps

variable {β : Type}

lemma run_current_bind (f : Token → Parser β) (src : Source) (ts : List Token) :
    (current >>= f).run src ts = (f (ts.headD src.eof)).run src ts := by
  rw [run_bind, run_current]

lemma run_following_bind (f : Token → Parser β) (src : Source) (ts : List Token) :
    (following >>= f).run src ts = (f (ts.tail.headD src.eof)).run src ts := by
  rw [run_bind, run_following]

lemma run_skip_bind (n : Nat) (f : Unit → Parser β) (src : Source) (ts : List Token) :
    (skip n >>= f).run src ts = (f ()).run src (ts.drop n) := by
  rw [run_bind, run_skip]

lemma run_advance_bind (f : Token → Parser β) (src : Source) (ts : List Token) :
    (advance >>= f).run src ts = (f (ts.headD src.eof)).run src (ts.drop 1) := by
  rw [run_bind, run_advance]

lemma run_isName_bind (t : Token) (f : Bool → Parser β) (src : Source) (ts : List Token) :
    (isName t >>= f).run src ts = (f (src.host.isName t.kind)).run src ts := by
  rw [run_bind, run_isName]
  rfl

lemma run_textBetween (first last : Token) (src : Source) (ts : List Token) :
    (textBetween first last).run src ts = .ok (Text.slice src.text first.start last.stop, ts) :=
  rfl

lemma eq_of_run_pure {a b : β} (h : (pure a : Parser β).run src ts = .ok (b, rest)) :
    b = a ∧ rest = ts := by
  rw [run_pure] at h
  obtain ⟨rfl, rfl⟩ := Prod.mk.inj (Except.ok.inj h)
  exact ⟨rfl, rfl⟩

lemma run_accept?_eq (kind : TokenKind) (src : Source) (ts : List Token) :
    (accept? kind).run src ts =
      if (ts.headD src.eof).kind = kind then .ok (some (ts.headD src.eof), ts.drop 1)
      else .ok (none, ts) := by
  rw [accept?, run_bind, run_current]
  dsimp only
  split
  · rw [run_bind, run_skip]
    rfl
  · rfl

lemma run_accepts (kind : TokenKind) (src : Source) (ts : List Token) :
    (accepts kind).run src ts =
      if (ts.headD src.eof).kind = kind then .ok (true, ts.drop 1) else .ok (false, ts) := by
  rw [accepts, run_bind, run_accept?_eq]
  by_cases hkind : (ts.headD src.eof).kind = kind
  · rw [if_pos hkind, if_pos hkind]
    rfl
  · rw [if_neg hkind, if_neg hkind]
    rfl

lemma exists_cons_of_headD {kind : TokenKind} (heof : src.eof.kind ≠ kind)
    (h : (ts.headD src.eof).kind = kind) : ∃ t more, ts = t :: more ∧ t.kind = kind := by
  cases ts with
  | nil => exact absurd h heof
  | cons t more => exact ⟨t, more, rfl, h⟩

lemma cases_of_run_accepts {kind : TokenKind} (heof : src.eof.kind ≠ kind) {b : Bool}
    (h : (accepts kind).run src ts = .ok (b, rest)) :
    (∃ t, ts = t :: rest ∧ t.kind = kind ∧ b = true) ∨
      (ts = rest ∧ (rest.headD src.eof).kind ≠ kind ∧ b = false) := by
  rw [run_accepts] at h
  split at h
  · rename_i hkind
    obtain ⟨rfl, rfl⟩ := Prod.mk.inj (Except.ok.inj h)
    obtain ⟨t, more, rfl, ht⟩ := exists_cons_of_headD heof hkind
    exact .inl ⟨t, rfl, ht, rfl⟩
  · rename_i hkind
    obtain ⟨rfl, rfl⟩ := Prod.mk.inj (Except.ok.inj h)
    exact .inr ⟨rfl, hkind, rfl⟩

end Steps

section Paths

variable {last last' : Token} {path : String}

/-- Names behind separators are read up to the last one. -/
lemma run_pathSegments_of_isWellFormed {segments : List (Token × Token)}
    (h : ∀ s ∈ segments, (s.1.kind = .pathSep ∨ s.1.kind = .dot) ∧ s.2.kind = .ident)
    (hrest : ∀ t ∈ rest.head?, t.kind ≠ .pathSep ∧ t.kind ≠ .dot) :
    (pathSegments last).run src (segments.flatMap (fun s => [s.1, s.2]) ++ rest) =
      .ok (((segments.getLast?.map Prod.snd).getD last), rest) := by
  induction segments generalizing last with
  | nil =>
    rw [List.flatMap_nil, List.nil_append, run_pathSegments]
    cases rest with
    | nil => rfl
    | cons t rest => simp [hrest t rfl]
  | cons s segments ih =>
    obtain ⟨hseparator, hname⟩ := h s List.mem_cons_self
    have hsegments := @ih s.2 fun s hs => h s (List.mem_cons_of_mem _ hs)
    have hlast : (((s :: segments).getLast?.map Prod.snd).getD last) =
        (segments.getLast?.map Prod.snd).getD s.2 := by
      rw [List.getLast?_cons]
      cases segments.getLast? <;> rfl
    rw [run_pathSegments, hlast, List.flatMap_cons, List.append_assoc]
    dsimp only [List.cons_append, List.nil_append]
    rw [if_pos (by simpa using hseparator), run_bind, run_expect hname]
    exact hsegments

lemma exists_segments_of_run_pathSegments (heof : src.eof.kind = .eof)
    (h : (pathSegments last).run src ts = .ok (last', rest)) :
    ∃ segments : List (Token × Token),
      (∀ s ∈ segments, (s.1.kind = .pathSep ∨ s.1.kind = .dot) ∧ s.2.kind = .ident) ∧
        ts = segments.flatMap (fun s => [s.1, s.2]) ++ rest ∧
        last' = (segments.getLast?.map Prod.snd).getD last := by
  induction hn : ts.length using Nat.strong_induction_on generalizing last ts with
  | _ n ih =>
    rw [run_pathSegments] at h
    cases ts with
    | nil =>
      obtain ⟨rfl, rfl⟩ := Prod.mk.inj (Except.ok.inj h)
      exact ⟨[], by simp, rfl, rfl⟩
    | cons t more =>
      dsimp only at h
      split at h
      · rename_i hseparator
        obtain ⟨name, mid, hname, hsegments⟩ := exists_of_run_bind h
        obtain ⟨rfl, hident⟩ := eq_cons_of_run_expect (by rw [heof]; decide) hname
        have hlength : mid.length < n := by
          rw [← hn, List.length_cons, List.length_cons]
          omega
        obtain ⟨segments, hok, rfl, rfl⟩ := ih mid.length hlength hsegments rfl
        refine ⟨(t, name) :: segments, ?_, rfl, ?_⟩
        · rintro s hs
          rcases List.mem_cons.mp hs with rfl | hs
          · exact ⟨by simpa using hseparator, hident⟩
          · exact hok s hs
        · rw [List.getLast?_cons]
          cases segments.getLast? <;> rfl
      · obtain ⟨rfl, rfl⟩ := Prod.mk.inj (Except.ok.inj h)
        exact ⟨[], by simp, rfl, rfl⟩

/-- A function path is read up to its closing bracket. -/
lemma run_customPath_of_isWellFormed {p : PathPhrase} (h : p.IsWellFormed) :
    customPath.run src (p.parts.map Prod.snd ++ rest) =
      .ok (Token.textOf src.text (p.path.map Prod.snd), rest) := by
  have hclose : p.closeBracket.kind ≠ .pathSep ∧ p.closeBracket.kind ≠ .dot := by
    rw [h.closeBracket]
    decide
  have hsegments (last : Token) : (pathSegments last).run src
      (p.segments.flatMap (fun s => [s.1, s.2]) ++ p.closeBracket :: rest) =
        .ok ((p.segments.getLast?.map Prod.snd).getD last, p.closeBracket :: rest) :=
    run_pathSegments_of_isWellFormed h.segments (by rintro t ⟨⟩; exact hclose)
  have hparts : p.parts.map Prod.snd ++ rest = p.openBracket :: (p.root.toList ++
      p.first :: (p.segments.flatMap (fun s => [s.1, s.2]) ++ p.closeBracket :: rest)) := by
    simp [PathPhrase.parts, PathPhrase.map_snd_path]
  rw [hparts, PathPhrase.textOf_path, customPath]
  cases hroot : p.root with
  | none =>
    simp [h.first, run_accept?_eq, run_expect, hsegments, h.closeBracket, run_textBetween]
  | some t =>
    simp [h.root t hroot, h.first, run_accept?_eq, run_expect, hsegments, h.closeBracket,
      run_textBetween]

lemma exists_path_of_run_customPath (heof : src.eof.kind = .eof) {t : Token}
    (ht : t.kind = .openBracket) (h : customPath.run src (t :: ts) = .ok (path, rest)) :
    ∃ p : PathPhrase, p.IsWellFormed ∧ t :: ts = p.parts.map Prod.snd ++ rest ∧
      path = Token.textOf src.text (p.path.map Prod.snd) := by
  rw [customPath, run_advance_bind, run_current_bind, List.drop_succ_cons, List.drop_zero] at h
  split at h
  · cases h
  obtain ⟨root, mid, hroot, h⟩ := exists_of_run_bind h
  obtain ⟨first, behind, hfirst, h⟩ := exists_of_run_bind h
  obtain ⟨last, more, hlast, h⟩ := exists_of_run_bind h
  rw [run_current_bind] at h
  split at h
  case isFalse => cases h
  rename_i hclose
  rw [run_skip_bind, run_textBetween] at h
  obtain ⟨rfl, rfl⟩ := Prod.mk.inj (Except.ok.inj h)
  obtain ⟨rfl, hpathSep⟩ := eq_append_of_run_accept? (by rw [heof]; decide) hroot
  obtain ⟨rfl, hident⟩ := eq_cons_of_run_expect (by rw [heof]; decide) hfirst
  obtain ⟨segments, hsegments, rfl, rfl⟩ := exists_segments_of_run_pathSegments heof hlast
  obtain ⟨c, more, rfl, hclose⟩ := exists_cons_of_headD (by rw [heof]; decide) hclose
  refine ⟨⟨t, root, first, segments, c⟩, ⟨ht, hpathSep, hident, hsegments, hclose⟩, ?_, ?_⟩
  · simp [PathPhrase.parts, PathPhrase.map_snd_path]
  · rw [PathPhrase.textOf_path]
    cases root <;> rfl

end Paths

section Modifiers

variable {m : Modifier}

/-- The signs of a modifier are read before the name of an entry. -/
lemma run_modifier_of_signs {signs : List Token} {kind : Modifier.Kind}
    (h : Modifier.Kind.ofSigns? false (signs.map Token.kind) = some kind)
    (hname : src.host.isName (rest.headD src.eof).kind)
    (hmut : signs.getLast?.map Token.kind = some .amp → (rest.headD src.eof).kind ≠ .wordMut) :
    modifier.run src (signs ++ rest) = .ok (kind.withPath "", rest) := by
  have hnext := Host.kind_of_isName hname
  rw [List.headD_eq_head?_getD] at hnext hmut
  have hsigns := Modifier.Kind.ofSigns?_isSome (Option.isSome_iff_exists.mpr ⟨kind, h⟩)
  rcases signs with _ | ⟨a, _ | ⟨b, _ | ⟨c, more⟩⟩⟩
  · obtain rfl : Modifier.Kind.direct = kind := Option.some.inj h
    simp [modifier, hnext, Modifier.Kind.withPath]
  · simp at hsigns
    rcases hsigns with ha | ha | ha
    all_goals
      rw [List.map_singleton, ha] at h
      obtain rfl := Option.some.inj h
      simp_all [modifier, run_accepts, Modifier.Kind.withPath]
  · simp at hsigns
    rcases hsigns with ⟨ha, hb⟩ | ⟨ha, hb⟩
    all_goals
      rw [List.map_cons, List.map_singleton, ha, hb] at h
      obtain rfl := Option.some.inj h
      simp [modifier, run_accepts, Modifier.Kind.withPath, ha, hb]
  · simp at hsigns

/-- The signs behind a path are read before the name of an entry. -/
lemma run_modifier_of_path {p : PathPhrase} (hp : p.IsWellFormed) {signs : List Token}
    {kind : Modifier.Kind} (h : Modifier.Kind.ofSigns? true (signs.map Token.kind) = some kind)
    (hname : src.host.isName (rest.headD src.eof).kind)
    (hmut : signs.getLast?.map Token.kind = some .amp → (rest.headD src.eof).kind ≠ .wordMut) :
    modifier.run src (p.parts.map Prod.snd ++ (signs ++ rest)) =
      .ok (kind.withPath (Token.textOf src.text (p.path.map Prod.snd)), rest) := by
  have hnext := Host.kind_of_isName hname
  rw [List.headD_eq_head?_getD] at hnext hmut
  have hsigns := Modifier.Kind.ofSigns?_isSome (Option.isSome_iff_exists.mpr ⟨kind, h⟩)
  have hpath : customPath.run src (p.parts.map Prod.snd ++ (signs ++ rest)) =
      .ok (Token.textOf src.text (p.path.map Prod.snd), signs ++ rest) :=
    run_customPath_of_isWellFormed hp
  have hhead : (p.parts.map Prod.snd ++ (signs ++ rest)).headD src.eof = p.openBracket := rfl
  rw [modifier, run_current_bind, hhead, hp.openBracket]
  dsimp only
  rw [run_bind, hpath]
  rcases signs with _ | ⟨a, _ | ⟨b, _ | ⟨c, more⟩⟩⟩
  · obtain rfl := Option.some.inj h
    simp [run_accepts, hnext, Modifier.Kind.withPath]
  · obtain ha : a.kind = .amp := by simpa using hsigns
    rw [List.map_singleton, ha] at h
    obtain rfl := Option.some.inj h
    simp_all [run_accepts, Modifier.Kind.withPath]
  · obtain ⟨ha, hb⟩ : a.kind = .amp ∧ b.kind = .wordMut := by simpa using hsigns
    rw [List.map_cons, List.map_singleton, ha, hb] at h
    obtain rfl := Option.some.inj h
    simp [run_accepts, Modifier.Kind.withPath, ha, hb]
  · simp at hsigns

/-- A modifier is read before the name of an entry. -/
lemma run_modifier_of_isWellFormed {p : ModifierPhrase} (h : p.IsWellFormed)
    (hname : src.host.isName (rest.headD src.eof).kind)
    (hmut : p.signs.getLast?.map Token.kind = some .amp → (rest.headD src.eof).kind ≠ .wordMut) :
    modifier.run src (p.parts.map Prod.snd ++ rest) = .ok (p.modifier src.text, rest) := by
  obtain ⟨path, signs⟩ := p
  obtain ⟨kind, hkind⟩ := Option.isSome_iff_exists.mp h.kind
  have hmodifier (text : String) : ModifierPhrase.modifier text ⟨path, signs⟩ =
      kind.withPath (path.elim "" fun b => Token.textOf text (b.path.map Prod.snd)) := by
    rw [ModifierPhrase.modifier, hkind, Option.getD_some]
  rw [hmodifier, ModifierPhrase.parts, List.map_append, Role.map_snd_signs]
  cases path with
  | none => exact run_modifier_of_signs hkind hname hmut
  | some b =>
    rw [List.append_assoc]
    exact run_modifier_of_path (h.path b rfl) hkind hname hmut

lemma exists_phrase_of_run_modifier (heof : src.eof.kind = .eof)
    (h : modifier.run src ts = .ok (m, rest)) :
    ∃ p : ModifierPhrase, p.IsWellFormed ∧ ts = p.parts.map Prod.snd ++ rest ∧
      m = p.modifier src.text ∧
      (p.signs.getLast?.map Token.kind = some .amp → (rest.headD src.eof).kind ≠ .wordMut) := by
  have hphrase (path : Option PathPhrase) (signs : List Token) (kind : Modifier.Kind)
      (hpath : ∀ b ∈ path, b.IsWellFormed)
      (hkind : Modifier.Kind.ofSigns? path.isSome (signs.map Token.kind) = some kind)
      (hts : ts = path.elim [] (fun b => b.parts.map Prod.snd) ++ (signs ++ rest))
      (hm : m = kind.withPath (path.elim "" fun b => Token.textOf src.text (b.path.map Prod.snd)))
      (hmut : signs.getLast?.map Token.kind = some .amp →
        (rest.headD src.eof).kind ≠ .wordMut) :
      ∃ p : ModifierPhrase, p.IsWellFormed ∧ ts = p.parts.map Prod.snd ++ rest ∧
        m = p.modifier src.text ∧
        (p.signs.getLast?.map Token.kind = some .amp → (rest.headD src.eof).kind ≠ .wordMut) := by
    refine ⟨⟨path, signs⟩, ⟨hpath, Option.isSome_iff_exists.mpr ⟨kind, hkind⟩⟩, ?_, ?_, hmut⟩
    · rw [hts, ModifierPhrase.parts, List.map_append, Role.map_snd_signs, List.append_assoc]
      cases path <;> rfl
    · have hmodifier : ModifierPhrase.kind? ⟨path, signs⟩ = some kind := hkind
      rw [hm, ModifierPhrase.modifier_eq hmodifier]
  rw [modifier, run_current_bind] at h
  split at h
  · rename_i hkind
    obtain ⟨t, more, rfl, ht⟩ := exists_cons_of_headD (by rw [heof]; decide) hkind
    rw [run_skip_bind] at h
    obtain ⟨b, mid, hmut, h⟩ := exists_of_run_bind h
    obtain ⟨rfl, rfl⟩ := eq_of_run_pure h
    rcases cases_of_run_accepts (by rw [heof]; decide) hmut with ⟨u, hts, hu, rfl⟩ | ⟨hts, hu, rfl⟩
    · exact hphrase none [t, u] .refMut (by simp)
        (by simp [ht, hu, Modifier.Kind.ofSigns?]) (congrArg (t :: ·) hts) rfl (by simp [hu])
    · exact hphrase none [t] .ref (by simp)
        (by simp [ht, Modifier.Kind.ofSigns?]) (congrArg (t :: ·) hts) rfl fun _ => hu
  · rename_i hkind
    obtain ⟨t, more, rfl, ht⟩ := exists_cons_of_headD (by rw [heof]; decide) hkind
    rw [run_skip_bind] at h
    obtain ⟨b, mid, hgreater, h⟩ := exists_of_run_bind h
    obtain ⟨rfl, rfl⟩ := eq_of_run_pure h
    rcases cases_of_run_accepts (by rw [heof]; decide) hgreater with
      ⟨u, hts, hu, rfl⟩ | ⟨hts, hu, rfl⟩
    · exact hphrase none [t, u] .cloneInto (by simp)
        (by simp [ht, hu, Modifier.Kind.ofSigns?]) (congrArg (t :: ·) hts) rfl (by simp [hu])
    · exact hphrase none [t] .clone (by simp)
        (by simp [ht, Modifier.Kind.ofSigns?]) (congrArg (t :: ·) hts) rfl (by simp [ht])
  · rename_i hkind
    obtain ⟨t, more, rfl, ht⟩ := exists_cons_of_headD (by rw [heof]; decide) hkind
    rw [run_skip_bind] at h
    obtain ⟨rfl, rfl⟩ := eq_of_run_pure h
    exact hphrase none [t] .into (by simp)
      (by simp [ht, Modifier.Kind.ofSigns?]) rfl rfl (by simp [ht])
  · rename_i hkind
    obtain ⟨t, more, rfl, ht⟩ := exists_cons_of_headD (by rw [heof]; decide) hkind
    obtain ⟨path, mid, hpath, h⟩ := exists_of_run_bind h
    obtain ⟨p, hp, hts, rfl⟩ := exists_path_of_run_customPath heof ht hpath
    obtain ⟨b, behind, hamp, h⟩ := exists_of_run_bind h
    rcases cases_of_run_accepts (by rw [heof]; decide) hamp with
      ⟨u, rfl, hu, rfl⟩ | ⟨rfl, hu, rfl⟩
    · rw [if_pos rfl] at h
      obtain ⟨b, last, hmut, h⟩ := exists_of_run_bind h
      obtain ⟨rfl, rfl⟩ := eq_of_run_pure h
      rcases cases_of_run_accepts (by rw [heof]; decide) hmut with
        ⟨v, rfl, hv, rfl⟩ | ⟨rfl, hv, rfl⟩
      · exact hphrase (some p) [u, v] .customRefMut
          (by rintro b ⟨⟩; exact hp) (by simp [hu, hv, Modifier.Kind.ofSigns?]) hts rfl
          (by simp [hv])
      · exact hphrase (some p) [u] .customRef
          (by rintro b ⟨⟩; exact hp) (by simp [hu, Modifier.Kind.ofSigns?]) hts rfl fun _ => hv
    · obtain ⟨rfl, rfl⟩ := eq_of_run_pure h
      exact hphrase (some p) [] .custom
        (by rintro b ⟨⟩; exact hp) rfl hts rfl (by simp)
  · split at h
    · cases h
    · obtain ⟨rfl, rfl⟩ := eq_of_run_pure h
      exact hphrase none [] .direct (by simp) rfl rfl rfl (by simp)

end Modifiers

section Entries

variable {stops : List TokenKind} {inGroup allowMut : Bool} {e : Entry} {t : Token}

lemma run_nameAfter {m : Modifier} (h : src.host.isName t.kind) :
    (nameAfter m).run src (t :: ts) = .ok (t, ts) := by
  rw [nameAfter, run_current_bind, run_isName_bind, List.headD_cons, if_pos h]
  rfl

/-- The end of a text is no name. -/
lemma exists_cons_of_isName (heof : src.eof.kind = .eof)
    (h : src.host.isName (ts.headD src.eof).kind) :
    ∃ t more, ts = t :: more ∧ src.host.isName t.kind := by
  cases ts with
  | nil =>
    change src.host.isName src.eof.kind at h
    rw [heof] at h
    simp [Host.isName, TokenKind.isSoftKeyword] at h
  | cons t more => exact ⟨t, more, rfl, h⟩

lemma eq_cons_of_run_nameAfter {m : Modifier} (heof : src.eof.kind = .eof)
    (h : (nameAfter m).run src ts = .ok (t, rest)) :
    ts = t :: rest ∧ src.host.isName t.kind := by
  rw [nameAfter, run_current_bind, run_isName_bind] at h
  split at h
  · rename_i hname
    obtain ⟨u, more, rfl, hu⟩ := exists_cons_of_isName heof hname
    rw [run_advance] at h
    obtain ⟨rfl, rfl⟩ := Prod.mk.inj (Except.ok.inj h)
    exact ⟨rfl, hu⟩
  · split at h <;> cases h

/-- What is read of an entry behind its name. -/
def entryTail (stops : List TokenKind) (inGroup : Bool) (plain : Entry) : Parser Entry := do
  if ← accepts .colon then
    if inGroup then
      let source ← sourceField stops
      return { plain with name := source.value, rename := some plain.name }
    else
      let value ← capture { stops, sought := .fieldValue plain.name }
      return { plain with value := some value }
  else return plain

/-- What is read of an entry behind its mark. -/
def markedEntry (stops : List TokenKind) (inGroup mutable : Bool) (position : Position) :
    Parser Entry := do
  let modifier ← modifier
  let name ← nameAfter modifier
  entryTail stops inGroup { name := name.value, modifier, mutable, position }

lemma run_entry (stops : List TokenKind) (inGroup allowMut : Bool) (src : Source)
    (ts : List Token) :
    (entry stops inGroup allowMut).run src ts =
      match (mutMark stops).run src ts with
      | .error error => .error error
      | .ok (mark, mid) =>
        if mark.isSome && !allowMut then
          .error (.fault .mutOutsideRebinding (mark.getD src.eof).position)
        else
          (markedEntry stops inGroup mark.isSome (ts.headD src.eof).position).run src mid := by
  rw [entry, run_current_bind, run_bind]
  rcases (mutMark stops).run src ts with error | ⟨_ | t, mid⟩
  · rfl
  · rfl
  · cases allowMut <;> rfl

lemma run_mutMark_some (ht : t.kind = .wordMut)
    (hnext : (ts.headD src.eof).kind ∉ TokenKind.colon :: .eof :: stops) :
    (mutMark stops).run src (t :: ts) = .ok (some t, ts) := by
  have hcontains : (TokenKind.colon :: .eof :: stops).contains (ts.headD src.eof).kind = false := by
    rwa [← Bool.not_eq_true, List.contains_iff_mem]
  rw [run_mutMark, List.tail_cons, hcontains, if_neg (by simp), run_accept?_eq, List.headD_cons,
    if_pos ht]
  rfl

lemma run_mutMark_none (h : (ts.headD src.eof).kind = .wordMut → src.host.isName .wordMut ∧
      (ts.tail.headD src.eof).kind ∈ TokenKind.colon :: .eof :: stops) :
    (mutMark stops).run src ts = .ok (none, ts) := by
  rw [run_mutMark]
  by_cases hkind : (ts.headD src.eof).kind = .wordMut
  · obtain ⟨hname, hnext⟩ := h hkind
    have hcontains := List.contains_iff_mem.mpr hnext
    rw [hcontains, hkind, if_pos]
    change (true && src.host.isName .wordMut && true) = true
    rw [hname]
    rfl
  · rw [decide_eq_false hkind, Bool.false_and, Bool.false_and, if_neg (by simp), run_accept?_eq,
      if_neg hkind]

lemma eq_append_of_run_mutMark (heof : src.eof.kind = .eof) {mark : Option Token}
    (h : (mutMark stops).run src ts = .ok (mark, rest)) :
    ts = mark.toList ++ rest ∧ ∀ t ∈ mark, t.kind = .wordMut := by
  rw [run_mutMark] at h
  split at h
  · obtain ⟨rfl, rfl⟩ := Prod.mk.inj (Except.ok.inj h)
    exact ⟨rfl, by simp⟩
  · exact eq_append_of_run_accept? (by rw [heof]; decide) h

lemma run_sourceField (ht : src.host.isName t.kind) (hnext : (ts.headD src.eof).kind ∈ stops) :
    (sourceField stops).run src (t :: ts) = .ok (t, ts) := by
  rw [sourceField, run_current_bind, run_following_bind, run_isName_bind, List.headD_cons,
    List.tail_cons, if_pos (by simpa [ht] using hnext)]
  rfl

lemma eq_cons_of_run_sourceField (heof : src.eof.kind = .eof)
    (h : (sourceField stops).run src ts = .ok (t, rest)) :
    ts = t :: rest ∧ src.host.isName t.kind := by
  rw [sourceField, run_current_bind, run_following_bind, run_isName_bind] at h
  split at h
  · rename_i hname
    obtain ⟨u, more, rfl, hu⟩ := exists_cons_of_isName heof (Bool.and_eq_true_iff.mp hname).1
    rw [run_advance] at h
    obtain ⟨rfl, rfl⟩ := Prod.mk.inj (Except.ok.inj h)
    exact ⟨rfl, hu⟩
  · cases h

/-- What `mut` stands before where it is a name. -/
lemma subset_of_stops (hstops : stops ⊆ [.comma, .closeBrace, .eof]) :
    TokenKind.colon :: .eof :: stops ⊆ [.colon, .eof, .comma, .closeBrace] := by
  intro kind hkind
  rcases List.mem_cons.mp hkind with rfl | hkind
  · decide
  rcases List.mem_cons.mp hkind with rfl | hkind
  · decide
  · have hmem := hstops hkind
    simp only [List.mem_cons, List.not_mem_nil, or_false] at hmem ⊢
    tauto

variable (hstops : stops ⊆ [.comma, .closeBrace, .eof])
  (hnext : (rest.headD src.eof).kind ∈ stops)

include hstops hnext

/-- What follows the name of an entry is read before the end of the entry. -/
lemma run_entryTail_of_isWellFormed {plain : Entry} {tail : EntryTail}
    (h : tail.IsWellFormed src.host stops inGroup plain.name) :
    (entryTail stops inGroup plain).run src (tail.parts.map Prod.snd ++ rest) =
      .ok (tail.complete Token.value src.text plain, rest) := by
  have hcolon : (rest.headD src.eof).kind ≠ .colon := by
    intro hkind
    have hmem := hstops hnext
    rw [hkind] at hmem
    exact absurd hmem (by decide)
  rw [entryTail, run_bind, run_accepts]
  cases tail with
  | nothing =>
    rw [EntryTail.parts, List.map_nil, List.nil_append, if_neg hcolon]
    rfl
  | source colon field =>
    obtain ⟨rfl, hkind, hfield⟩ := h
    have hparts : (EntryTail.source colon field).parts.map Prod.snd ++ rest =
        colon :: field :: rest := rfl
    rw [hparts, List.headD_cons, if_pos hkind, List.drop_succ_cons, List.drop_zero]
    dsimp only
    rw [if_pos rfl, if_pos rfl, run_bind, run_sourceField hfield hnext]
    rfl
  | value colon ts =>
    obtain ⟨rfl, hkind, hvalue⟩ := h
    have hparts : (EntryTail.value colon ts).parts.map Prod.snd ++ rest =
        colon :: (ts ++ rest) := by
      simp [EntryTail.parts]
    rw [hparts, List.headD_cons, if_pos hkind, List.drop_succ_cons, List.drop_zero]
    dsimp only
    rw [if_pos rfl, if_neg (by simp), run_bind,
      (run_capture_iff (fun h => absurd (hstops h) (by decide)) hnext).mpr ⟨ts, hvalue, rfl, rfl⟩]
    rfl

lemma exists_tail_of_run_entryTail (heof : src.eof.kind = .eof) {plain : Entry}
    (h : (entryTail stops inGroup plain).run src ts = .ok (e, rest)) :
    ∃ tail : EntryTail, tail.IsWellFormed src.host stops inGroup plain.name ∧
      ts = tail.parts.map Prod.snd ++ rest ∧ e = tail.complete Token.value src.text plain := by
  obtain ⟨hasTail, mid, hcolon, h⟩ := exists_of_run_bind h
  rcases cases_of_run_accepts (by rw [heof]; decide) hcolon with
    ⟨colon, rfl, hkind, rfl⟩ | ⟨rfl, -, rfl⟩
  · rw [if_pos rfl] at h
    cases inGroup with
    | true =>
      obtain ⟨field, last, hsource, h⟩ := exists_of_run_bind h
      obtain ⟨rfl, rfl⟩ := eq_of_run_pure h
      obtain ⟨rfl, hfield⟩ := eq_cons_of_run_sourceField heof hsource
      exact ⟨.source colon field, ⟨rfl, hkind, hfield⟩, rfl, rfl⟩
    | false =>
      obtain ⟨value, last, hvalue, h⟩ := exists_of_run_bind h
      obtain ⟨rfl, rfl⟩ := eq_of_run_pure h
      obtain ⟨front, hfront, rfl, rfl⟩ :=
        (run_capture_iff (fun h => absurd (hstops h) (by decide)) hnext).mp hvalue
      refine ⟨.value colon front, ⟨rfl, hkind, hfront⟩, ?_, rfl⟩
      simp [EntryTail.parts]
  · obtain ⟨rfl, rfl⟩ := eq_of_run_pure h
    exact ⟨.nothing, trivial, rfl, rfl⟩

lemma run_markedEntry_of_isWellFormed {p : EntryPhrase} {position : Position}
    (h : p.IsWellFormed src.host stops inGroup allowMut) :
    (markedEntry stops inGroup p.mark.isSome position).run src
        (p.modifier.parts.map Prod.snd ++ p.name :: (p.tail.parts.map Prod.snd ++ rest)) =
      .ok (p.tail.complete Token.value src.text
        { name := p.name.value, modifier := p.modifier.modifier src.text,
          mutable := p.mark.isSome, position }, rest) := by
  have hmodifier : modifier.run src
      (p.modifier.parts.map Prod.snd ++ p.name :: (p.tail.parts.map Prod.snd ++ rest)) =
        .ok (p.modifier.modifier src.text, p.name :: (p.tail.parts.map Prod.snd ++ rest)) :=
    run_modifier_of_isWellFormed h.modifier h.name h.name_ne_mut
  rw [markedEntry, run_bind, hmodifier]
  dsimp only
  rw [run_bind, run_nameAfter h.name]
  exact run_entryTail_of_isWellFormed hstops hnext h.tail

/-- The mark of an entry is told from a name by what follows it. -/
lemma run_mutMark_of_isWellFormed {p : EntryPhrase}
    (h : p.IsWellFormed src.host stops inGroup allowMut) :
    (mutMark stops).run src (p.tokens ++ rest) =
      .ok (p.mark,
        p.modifier.parts.map Prod.snd ++ p.name :: (p.tail.parts.map Prod.snd ++ rest)) := by
  have hends := subset_of_stops hstops
  have hnames : ∀ kind ∈ TokenKind.entryStarts, kind ∉ [.colon, .eof, .comma, .closeBrace] := by
    decide
  have hsigns : ∀ kind ∈ [TokenKind.plus, .greater, .amp, .openBracket], kind ≠ .wordMut := by
    decide
  rw [EntryPhrase.tokens_eq]
  cases hmark : p.mark with
  | some t =>
    obtain ⟨u, more, hparts, hstart⟩ := h.start_mem
    have hrest : p.modifier.parts.map Prod.snd ++ p.name :: (p.tail.parts.map Prod.snd ++ rest) =
        u :: (more ++ rest) := by
      rw [← List.cons_append, ← List.append_assoc, hparts, List.cons_append]
    rw [hparts, hrest]
    exact run_mutMark_some (h.mark t hmark).1 fun hmem => hnames _ hstart (hends hmem)
  | none =>
    rw [Option.toList_none, List.nil_append, List.append_assoc, List.cons_append]
    refine run_mutMark_none fun hkind => ?_
    obtain ⟨u, more, hparts, hsign | ⟨hmodifier, rfl, rfl⟩⟩ := h.start
    · rw [← List.cons_append, ← List.append_assoc, hparts] at hkind
      exact absurd hkind (hsigns _ hsign)
    · rw [hmodifier] at hkind ⊢
      have hname : p.name.kind = .wordMut := hkind
      refine ⟨hname ▸ h.name, ?_⟩
      change ((p.tail.parts.map Prod.snd ++ rest).headD src.eof).kind ∈ _
      have htail := h.tail
      cases htailEq : p.tail with
      | nothing => exact List.mem_cons_of_mem _ (List.mem_cons_of_mem _ hnext)
      | source colon field =>
        rw [htailEq] at htail
        exact List.mem_cons.mpr (.inl htail.2.1)
      | value colon ts =>
        rw [htailEq] at htail
        exact List.mem_cons.mpr (.inl htail.2.1)

lemma run_entry_of_isWellFormed {p : EntryPhrase}
    (h : p.IsWellFormed src.host stops inGroup allowMut) :
    (entry stops inGroup allowMut).run src (p.tokens ++ rest) =
      .ok (p.entry Token.value src.text, rest) := by
  have hallowed : (p.mark.isSome && !allowMut) = false := by
    cases hmark : p.mark with
    | none => rfl
    | some t => simp [(h.mark t hmark).2]
  have hhead : (p.tokens ++ rest).headD src.eof = p.tokens.headD p.name := by
    obtain ⟨t, more, htokens, -⟩ := h.exists_tokens
    rw [htokens]
    rfl
  rw [run_entry, run_mutMark_of_isWellFormed hstops hnext h]
  dsimp only
  rw [hallowed, if_neg (by simp), run_markedEntry_of_isWellFormed hstops hnext h, hhead]
  rfl

lemma exists_phrase_of_run_entry (heof : src.eof.kind = .eof)
    (h : (entry stops inGroup allowMut).run src ts = .ok (e, rest)) :
    ∃ p : EntryPhrase, p.IsWellFormed src.host stops inGroup allowMut ∧
      ts = p.tokens ++ rest ∧ e = p.entry Token.value src.text := by
  rw [run_entry] at h
  rcases hmark : (mutMark stops).run src ts with error | ⟨mark, mid⟩
  · rw [hmark] at h
    cases h
  rw [hmark] at h
  dsimp only at h
  split at h
  · cases h
  rename_i hallowed
  obtain ⟨hts, hmut⟩ := eq_append_of_run_mutMark heof hmark
  obtain ⟨m, behind, hmodifier, hnamed⟩ := exists_of_run_bind h
  obtain ⟨name, last, hname, hended⟩ := exists_of_run_bind hnamed
  obtain ⟨p, hp, rfl, rfl, hamp⟩ := exists_phrase_of_run_modifier heof hmodifier
  obtain ⟨rfl, hisName⟩ := eq_cons_of_run_nameAfter heof hname
  obtain ⟨tail, htail, rfl, rfl⟩ := exists_tail_of_run_entryTail hstops hnext heof hended
  have hphrase : EntryPhrase.IsWellFormed src.host stops inGroup allowMut
      ⟨mark, p, name, tail⟩ := by
    refine ⟨fun t ht => ⟨hmut t ht, ?_⟩, hp, hisName, hamp, htail⟩
    obtain rfl : mark = some t := ht
    simpa using hallowed
  have htokens : ts = EntryPhrase.tokens ⟨mark, p, name, tail⟩ ++ rest := by
    rw [hts, EntryPhrase.tokens_eq, List.append_assoc, List.append_assoc]
    rfl
  refine ⟨_, hphrase, htokens, ?_⟩
  obtain ⟨t, more, hhead, -⟩ := hphrase.exists_tokens
  rw [EntryPhrase.entry, htokens, hhead]
  rfl

/-- An entry that ends before one of its stops is read from the tokens of its phrases. -/
lemma run_entry_iff (heof : src.eof.kind = .eof) :
    (entry stops inGroup allowMut).run src ts = .ok (e, rest) ↔
      ∃ p : EntryPhrase, p.IsWellFormed src.host stops inGroup allowMut ∧
        ts = p.tokens ++ rest ∧ e = p.entry Token.value src.text := by
  refine ⟨exists_phrase_of_run_entry hstops hnext heof, ?_⟩
  rintro ⟨p, hp, rfl, rfl⟩
  exact run_entry_of_isWellFormed hstops hnext hp

end Entries

end Parser

end FieldComposition
