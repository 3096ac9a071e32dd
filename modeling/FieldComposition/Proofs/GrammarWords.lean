import Mathlib.Data.List.Nodup
import FieldComposition.Proofs.NamePlaces
import FieldComposition.Proofs.RefusedPhrases
import FieldComposition.Proofs.ReplacedTokens

/-!
# Words of the grammar as names

In a host that allows it, a word of the grammar may stand for any name of a field list, which is
read as before but for that name. A segment of a function path cannot be such a word: the list is
refused there (`ofText_reword`).
-/

namespace FieldComposition

open Role (signs)

variable {host : Host} {text word : String} {allowBase allowMut : Bool} {t : Token}

/-- A part of a list stands before or behind an element that is not in it. -/
lemma infix_of_not_mem {α : Type} {part front back : List α} {a : α}
    (h : part <:+: front ++ a :: back) (ha : a ∉ part) : part <:+: front ∨ part <:+: back := by
  have hshort {front : List α} (hpart : part <+: front ++ a :: back) : part <+: front := by
    have hfirst : front ++ [a] <+: front ++ a :: back := ⟨back, by simp⟩
    rcases List.prefix_or_prefix_of_prefix hpart hfirst with hpart | hfirst
    · rcases List.prefix_concat_iff.mp hpart with rfl | hpart
      · exact absurd (List.mem_append_right _ List.mem_cons_self) ha
      · exact hpart
    · exact absurd (hfirst.subset (List.mem_append_right _ List.mem_cons_self)) ha
  induction front with
  | nil => exact (List.infix_cons_iff.mp h).imp (fun hpart => (hshort hpart).isInfix) id
  | cons b front ih =>
    rcases List.infix_cons_iff.mp h with hpart | hrest
    · exact .inl (hshort hpart).isInfix
    · exact (ih hrest).imp_left fun hfront => hfront.trans (List.suffix_cons _ _).isInfix

namespace TextPhrase.Reads

variable {p : TextPhrase}

/-- A text with another word in the place of a name or a segment is read as the same tokens but for
that one. -/
lemma exists_ofText_reword {role : Role} (hp : p.Reads (.dialect .python) allowBase allowMut text)
    (ht : (role, t) ∈ p.parts) (hrole : role ≠ .sign) (hword : Text.IsWord word.toList) :
    ∃ eof, Tokens.ofText (.dialect .python) (Text.reword text t word) =
      .ok ⟨(p.map (t.reword word)).tokens, eof⟩ := by
  obtain ⟨eof, htokens⟩ := hp.tokens_eq_body
  obtain ⟨front, back, hsplit⟩ := List.append_of_mem ht
  have hbody : p.tokens = front.map Prod.snd ++ t :: back.map Prod.snd := by
    rw [tokens, hsplit, List.map_append, List.map_cons]
  have hplaced := hp.wellFormed.placed
  have hkind := TokenKind.isWord_of_isSoftKeyword
    (Host.isSoftKeyword_of_isName (hplaced.isName ht hrole))
  rw [hsplit] at hplaced
  rw [hbody] at htokens
  rw [tokens_map, hbody]
  refine Tokens.exists_ofText_reword htokens hkind (fun u hu => ?_) hword
  rw [List.getLast?_map] at hu
  obtain ⟨q, hq, rfl⟩ := Option.map_eq_some_iff.mp hu
  exact hplaced.introducer hrole q hq

/-- With a word in the place of a name a phrase stands for the same up to that name. -/
lemma carries_reword (hp : p.Reads (.dialect .python) allowBase allowMut text)
    (ht : (.name, t) ∈ p.parts) (hkind : (Lexeme.wordKind word.toList).isSoftKeyword)
    (hmut : Lexeme.wordKind word.toList ≠ .wordMut) :
    Role.Carries (.dialect .python) (t.reword word)
      { text, nameOf := Function.update Token.value t word, place := t.makeRoom word }
      { text := Text.reword text t word } p.parts p.list.runs := by
  obtain ⟨eof, htokens⟩ := hp.tokens_eq_body
  obtain ⟨front, back, hsplit⟩ := List.append_of_mem ht
  have hbody : p.tokens = front.map Prod.snd ++ t :: back.map Prod.snd := by
    rw [tokens, hsplit, List.map_append, List.map_cons]
  rw [hbody] at htokens
  obtain ⟨hlt, hfront, hback⟩ := Tokens.bounds_of_ofText htokens
  have hmem : t ∈ front.map Prod.snd ++ t :: back.map Prod.snd := by simp
  have hcases {part : Role × Token} (hpart : part ∈ p.parts) :
      part = (.name, t) ∨ part.2.start < t.start ∨ t.start < part.2.start := by
    rw [hsplit] at hpart
    rcases List.mem_append.mp hpart with hpart | hpart
    · exact .inr (.inl (hfront _ (List.mem_map_of_mem hpart)).1)
    · rcases List.mem_cons.mp hpart with rfl | hpart
      · exact .inl rfl
      · exact .inr (.inr (hlt.trans_le (hback _ (List.mem_map_of_mem hpart)).1))
  have hne {u : Token} (hu : u.start < t.start ∨ t.start < u.start) : u ≠ t := by
    rintro rfl
    omega
  refine ⟨fun part hpart => ?_, fun part hpart _ => ?_, fun part hpart => ?_, fun run hrun => ?_⟩
  · rcases hcases hpart with rfl | hside
    · rw [Role.Keeps, Token.reword_self]
      exact .inr ⟨rfl, by simp [Host.isName, Host.hasSoftKeywords, hkind], hmut⟩
    · exact .inl (Token.reword_of_ne (hne hside)).1
  · rcases hcases hpart with rfl | hside
    · simp [Token.reword_self]
    · exact (Token.reword_of_ne (hne hside)).2.trans
        (Function.update_of_ne (hne hside) _ _).symm
  · rcases hcases hpart with rfl | hside | hside
    · rw [Token.reword_self]
      exact (Tokens.makeRoom_eq_self htokens hmem hmem le_rfl).symm
    · have hu : part.2 ∈ front.map Prod.snd ++ t :: back.map Prod.snd :=
        hbody ▸ List.mem_map_of_mem hpart
      rw [Token.reword_of_lt hside]
      exact (Tokens.makeRoom_eq_self htokens hu hmem hside.le).symm
    · rw [Token.reword_of_gt hside]
      rfl
  · obtain ⟨hwithin, hnames⟩ := p.list.holds.mono p.list_infix run hrun
    have hlength : t.start ≤ text.toList.length :=
      hlt.le.trans ((Tokens.tiled_of_ofText htokens).forall_mem t hmem).2.1
    rw [hsplit] at hwithin
    rcases infix_of_not_mem hwithin fun hname => hnames _ hname rfl with hside | hside
    · have hsame : (run.map Prod.snd).map (t.reword word) = run.map Prod.snd := by
        refine (List.map_congr_left fun u hu => ?_).trans (List.map_id _)
        exact Token.reword_of_lt (hfront u ((hside.map Prod.snd).subset hu)).1
      rw [hsame]
      exact Token.textOf_of_take_eq (Text.take_reword hlength) fun u hu =>
        (hfront u ((hside.map Prod.snd).subset hu)).2
    · have hmoved : (run.map Prod.snd).map (t.reword word) = (run.map Prod.snd).map
          (Token.move t.stop (t.start + word.length) (t.makeRoom word)) := by
        refine List.map_congr_left fun u hu => Token.reword_of_gt ?_
        exact hlt.trans_le (hback u ((hside.map Prod.snd).subset hu)).1
      rw [hmoved]
      refine Token.textOf_move (Text.drop_reword hlength) fun u hu => ?_
      obtain ⟨hle, hlt⟩ := hback u ((hside.map Prod.snd).subset hu)
      exact ⟨hle, hle.trans hlt.le⟩

/-- A word of the grammar is read as a name. -/
lemma ofText_reword_name (hp : p.Reads (.dialect .python) allowBase allowMut text)
    (ht : (.name, t) ∈ p.parts) (hword : Text.IsWord word.toList)
    (hkind : (Lexeme.wordKind word.toList).isSoftKeyword)
    (hmut : Lexeme.wordKind word.toList ≠ .wordMut) :
    Composition.ofText allowBase allowMut (.dialect .python) (Text.reword text t word) =
      .ok ((p.list.composition (Function.update Token.value t word) text).mapPositions
        (t.makeRoom word)) := by
  have hcarries := hp.carries_reword ht hkind hmut
  have hmap := ListPhrase.composition_map hp.wellFormed.list
    (hcarries.mono p.list_infix.subset (List.Subset.refl _))
  rw [Composition.mapPositions_id] at hmap
  exact Composition.ofText_iff.mpr ⟨p.map (t.reword word),
    ⟨hp.wellFormed.map hcarries.keeps, hp.exists_ofText_reword ht nofun hword⟩, hmap.symm⟩

end TextPhrase.Reads

/-! ## Segments -/

/-- The token `t` is replaced by a word of the grammar, and no other token changes its kind. -/
structure Token.Spoils (f : Token → Token) (t : Token) : Prop where
  kind_of_ne : ∀ u, u ≠ t → (f u).kind = u.kind
  isSoftKeyword : (f t).kind.isSoftKeyword
  isSegment : t.kind = .ident

/-- The error at a word of the grammar in a function path. -/
def ReadError.atWord (sought : Sought) (t : Token) : ReadError :=
  .fault (.expected sought (.text t.value)) t.position

variable {f : Token → Token}

namespace Token.Spoils

lemma kind_eq (h : Spoils f t) {u : Token} {kind : TokenKind} (hu : u.kind = kind)
    (hkind : kind ≠ .ident) : (f u).kind = kind := by
  refine (h.kind_of_ne u ?_).trans hu
  rintro rfl
  exact hkind (hu.symm.trans h.isSegment)

lemma keeps (h : Spoils f t) {parts : List (Role × Token)} (ht : t ∉ parts.map Prod.snd) :
    ∀ part ∈ parts, Role.Keeps host f part := by
  intro part hpart
  refine .inl (h.kind_of_ne _ ?_)
  rintro rfl
  exact ht (List.mem_map_of_mem hpart)

lemma brackets_eq (h : Spoils f t) (u : Token) :
    (f u).kind.isOpener = u.kind.isOpener ∧ (f u).kind.isCloser = u.kind.isCloser ∧
      (some (f u).kind == some .openBrace) = (some u.kind == some .openBrace) := by
  by_cases hu : u = t
  · have hwords : ∀ kind : TokenKind, kind.isSoftKeyword → kind.isOpener = false ∧
        kind.isCloser = false ∧ (some kind == some .openBrace) = false := by
      intro kind hkind
      cases kind <;> first | exact ⟨rfl, rfl, rfl⟩ | cases hkind
    obtain ⟨hopener, hcloser, hbrace⟩ := hwords _ h.isSoftKeyword
    rw [hu, hopener, hcloser, hbrace, h.isSegment]
    decide
  · rw [h.kind_of_ne u hu]
    exact ⟨rfl, rfl, rfl⟩

/-- Whether tokens are one pair of braces depends on their brackets only. -/
lemma isBracePair_map (h : Spoils f t) (ts : List Token) :
    isBracePair (ts.map f) = isBracePair ts := by
  have htoClose (ts : List Token) (depth : Nat) :
      toClose? depth (ts.map f) = toClose? depth ts := by
    induction ts generalizing depth with
    | nil => rfl
    | cons u ts ih =>
      obtain ⟨hopener, hcloser, -⟩ := h.brackets_eq u
      rw [List.map_cons, toClose?_cons, toClose?_cons, hopener, hcloser]
      cases depth <;> simp only [ih]
  cases ts with
  | nil => rfl
  | cons u ts =>
    rw [List.map_cons, isBracePair, isBracePair, List.head?_cons, List.head?_cons, Option.map_some,
      Option.map_some, (h.brackets_eq u).2.2, List.length_cons, List.length_cons, List.length_map,
      matchingClose?, matchingClose?, htoClose]

end Token.Spoils

namespace Parser

variable {src : Source} {stops : List TokenKind} {inGroup : Bool} {rule : ListRule}

lemma run_bind_assoc {α β γ : Type} (p : Parser α) (q : α → Parser β) (k : β → Parser γ)
    (ts : List Token) : (p >>= fun a => q a >>= k).run src ts = (p >>= q >>= k).run src ts := by
  rw [run_bind, run_bind, run_bind]
  cases p.run src ts with
  | error => rfl
  | ok r => exact run_bind ..

/-- A word of the grammar is no segment. -/
lemma refuses_segment (hf : t.Spoils f) (sought : Sought) :
    Refuses src (expect .ident sought) [f t] (.atWord sought (f t)) := by
  have hword : ∀ kind : TokenKind, kind.isSoftKeyword → kind ≠ .ident ∧ kind ≠ .eof := by
    intro kind hkind
    cases kind <;> simp_all [TokenKind.isSoftKeyword]
  obtain ⟨hident, heof⟩ := hword _ hf.isSoftKeyword
  intro rest
  rw [List.singleton_append, expect, run_current_bind, List.headD_cons, if_neg hident, run_fail,
    found, if_neg heof, ReadError.atWord]

lemma refuses_pathSegments (hf : t.Spoils f) {segments : List (Token × Token)}
    (hwf : ∀ s ∈ segments, (s.1.kind = .pathSep ∨ s.1.kind = .dot) ∧ s.2.kind = .ident)
    (ht : ∃ s ∈ segments, s.2 = t) (last : Token) :
    Refuses src (pathSegments last) ((segments.flatMap fun s => [s.1, s.2]).map f)
      (.atWord .functionPathSegment (f t)) := by
  intro rest
  induction segments generalizing last with
  | nil =>
    obtain ⟨s, hs, -⟩ := ht
    cases hs
  | cons s segments ih =>
    obtain ⟨hseparator, hsegment⟩ := hwf s List.mem_cons_self
    have hfseparator : (f s.1).kind = .pathSep ∨ (f s.1).kind = .dot :=
      hseparator.imp (fun h => hf.kind_eq h nofun) fun h => hf.kind_eq h nofun
    have htokens : ((s :: segments).flatMap fun s => [s.1, s.2]).map f ++ rest =
        f s.1 :: f s.2 :: ((segments.flatMap fun s => [s.1, s.2]).map f ++ rest) := rfl
    rw [htokens, run_pathSegments]
    dsimp only
    rw [if_pos (by simpa using hfseparator)]
    by_cases hs : s.2 = t
    · rw [hs]
      exact (refuses_segment hf _).bind _ _
    · rw [run_bind, run_expect ((hf.kind_of_ne _ hs).trans hsegment)]
      refine ih (fun s hs => hwf s (List.mem_cons_of_mem _ hs)) ?_ _
      obtain ⟨s', hs', heq⟩ := ht
      rcases List.mem_cons.mp hs' with rfl | hs'
      · exact absurd heq hs
      · exact ⟨s', hs', heq⟩

/-- A path is refused at a segment that is a word of the grammar. -/
lemma refuses_customPath (hf : t.Spoils f) {p : PathPhrase} (hp : p.IsWellFormed)
    (ht : (.segment, t) ∈ p.parts) :
    ∃ sought, Refuses src customPath ((p.parts.map Prod.snd).map f) (.atWord sought (f t)) := by
  let segments := (p.segments.flatMap fun s => [s.1, s.2]).map f
  have hsegments : ∃ sought, Refuses src (expect .ident .functionPath >>= pathSegments)
      (f p.first :: segments) (.atWord sought (f t)) := by
    by_cases hfirst : p.first = t
    · rw [hfirst]
      exact ⟨_, ((refuses_segment hf _).bind _).append segments⟩
    · refine ⟨.functionPathSegment, fun rest => ?_⟩
      have hread : (expect .ident .functionPath).run src (f p.first :: (segments ++ rest)) =
          .ok (f p.first, segments ++ rest) :=
        run_expect ((hf.kind_of_ne _ hfirst).trans hp.first)
      have hmem : ∃ s ∈ p.segments, s.2 = t := by
        simpa [PathPhrase.parts, PathPhrase.path, signs, Ne.symm hfirst, eq_comm] using ht
      rw [List.cons_append, run_bind, hread]
      exact refuses_pathSegments hf hp.segments hmem _ rest
  obtain ⟨sought, hrefuses⟩ := hsegments
  refine ⟨sought, fun rest => ?_⟩
  let behind := f p.first :: (segments ++ f p.closeBracket :: rest)
  have htokens : (p.parts.map Prod.snd).map f ++ rest =
      f p.openBracket :: (p.root.toList.map f ++ behind) := by
    simp [PathPhrase.parts, PathPhrase.map_snd_path, behind, segments]
  have hfirst : (f p.first).kind ≠ .closeBracket ∧ (f p.first).kind ≠ .pathSep := by
    by_cases hfirst : p.first = t
    · rw [hfirst]
      have hkind := hf.isSoftKeyword
      constructor <;> intro heq <;> rw [heq] at hkind <;> cases hkind
    · rw [hf.kind_of_ne _ hfirst, hp.first]
      decide
  have hroot : ((p.root.toList.map f ++ behind).headD src.eof).kind ≠ .closeBracket ∧
      (accept? .pathSep).run src (p.root.toList.map f ++ behind) = .ok (p.root.map f, behind) := by
    cases hroot : p.root with
    | none =>
      refine ⟨hfirst.1, ?_⟩
      rw [run_accept?_eq]
      exact if_neg hfirst.2
    | some u =>
      have hu : (f u).kind = .pathSep := hf.kind_eq (hp.root u hroot) (by decide)
      refine ⟨?_, ?_⟩
      · change (f u).kind ≠ .closeBracket
        rw [hu]
        decide
      · rw [run_accept?_eq]
        exact if_pos hu
  rw [htokens, customPath, run_advance_bind, run_current_bind, List.drop_succ_cons, List.drop_zero,
    if_neg hroot.1, run_bind, hroot.2]
  exact (run_bind_assoc ..).trans (hrefuses.bind _ _)

lemma refuses_modifier (hf : t.Spoils f) {p : ModifierPhrase} (hp : p.IsWellFormed)
    (ht : (.segment, t) ∈ p.parts) :
    ∃ sought, Refuses src modifier ((p.parts.map Prod.snd).map f) (.atWord sought (f t)) := by
  obtain ⟨path, signs⟩ := p
  cases path with
  | none => simp [ModifierPhrase.parts, Role.signs] at ht
  | some b =>
    have hmem : (.segment, t) ∈ b.parts := by
      simpa [ModifierPhrase.parts, Role.signs] using ht
    have hcustom : ∃ sought, Refuses src customPath ((b.parts.map Prod.snd).map f)
        (.atWord sought (f t)) := refuses_customPath hf (hp.path b rfl) hmem
    obtain ⟨sought, hpath⟩ := hcustom
    refine ⟨sought, ?_⟩
    have hmodifier : Refuses src modifier ((b.parts.map Prod.snd).map f)
        (.atWord sought (f t)) := by
      intro rest
      have hopen : (((b.parts.map Prod.snd).map f ++ rest).headD src.eof).kind = .openBracket :=
        hf.kind_eq (hp.path b rfl).openBracket (by decide)
      rw [modifier, run_current_bind, hopen]
      exact hpath.bind _ rest
    have htokens : ((ModifierPhrase.parts ⟨some b, signs⟩).map Prod.snd).map f =
        (b.parts.map Prod.snd).map f ++ signs.map f := by
      simp [ModifierPhrase.parts]
    rw [htokens]
    exact hmodifier.append _

lemma startsEntry_map (hf : t.Spoils f) {p : EntryPhrase}
    (hp : p.IsWellFormed host stops inGroup allowMut) : StartsEntry (p.tokens.map f) := by
  obtain ⟨u, more, htokens, hkind⟩ := hp.exists_tokens
  refine ⟨f u, more.map f, by rw [htokens, List.map_cons], ?_⟩
  by_cases hu : u = t
  · rw [hu]
    have hname : (Host.dialect .python).isName (f t).kind := by
      simp [Host.isName, Host.hasSoftKeywords, hf.isSoftKeyword]
    exact Host.mem_entryStarts_of_isName hname
  · rwa [hf.kind_of_ne u hu]

/-- An entry is refused at a segment of its path that is a word of the grammar. -/
lemma refuses_entry_of_segment (hf : t.Spoils f) (hstops : stops ⊆ [.comma, .closeBrace, .eof])
    {p : EntryPhrase} (hp : p.IsWellFormed src.host stops inGroup allowMut)
    (ht : (.segment, t) ∈ p.parts) :
    ∃ sought, Refuses src (entry stops inGroup allowMut) (p.tokens.map f)
      (.atWord sought (f t)) := by
  have hsegment : (.segment, t) ∈ p.modifier.parts := by
    have htail : (.segment, t) ∉ p.tail.parts := by
      cases p.tail <;> simp [EntryTail.parts, signs]
    simpa [EntryPhrase.parts, signs, htail] using ht
  have hrefuses : ∃ sought, Refuses src modifier ((p.modifier.parts.map Prod.snd).map f)
      (.atWord sought (f t)) := refuses_modifier hf hp.modifier hsegment
  obtain ⟨sought, hmodifier⟩ := hrefuses
  refine ⟨sought, fun rest => ?_⟩
  obtain ⟨u, more, hparts, hkind⟩ := hp.modifier.start.resolve_left fun hempty => by
    rw [hempty] at hsegment
    cases hsegment
  have hsigns : ∀ kind ∈ [TokenKind.plus, .greater, .amp, .openBracket],
      kind ≠ .ident ∧ kind ≠ .wordMut ∧ kind ∉ [.colon, .eof, .comma, .closeBrace] := by decide
  obtain ⟨hident, hmut, hends⟩ := hsigns _ hkind
  have hfu : (f u).kind = u.kind := hf.kind_eq rfl hident
  let behind := (p.name :: p.tail.parts.map Prod.snd).map f ++ rest
  have hhead : (p.modifier.parts.map Prod.snd).map f ++ behind = f u :: (more.map f ++ behind) := by
    rw [hparts]
    rfl
  have hmark : (mutMark stops).run src (p.tokens.map f ++ rest) =
      .ok (p.mark.map f, (p.modifier.parts.map Prod.snd).map f ++ behind) := by
    have htokens : p.tokens.map f ++ rest =
        p.mark.toList.map f ++ ((p.modifier.parts.map Prod.snd).map f ++ behind) := by
      rw [EntryPhrase.tokens_eq]
      simp [behind]
    rw [htokens, hhead]
    cases hmark : p.mark with
    | none => exact run_mutMark_none fun hkind => absurd (hfu.symm.trans hkind) hmut
    | some m =>
      refine run_mutMark_some (hf.kind_eq (hp.mark m hmark).1 (by decide)) fun hmem => hends ?_
      have hmem : (f u).kind ∈ TokenKind.colon :: .eof :: stops := hmem
      rw [hfu] at hmem
      exact subset_of_stops hstops hmem
  have hallowed : ((p.mark.map f).isSome && !allowMut) = false := by
    cases hmark : p.mark with
    | none => rfl
    | some m => simp [(hp.mark m hmark).2]
  rw [run_entry, hmark]
  dsimp only
  rw [hallowed, if_neg (by simp), markedEntry]
  exact hmodifier.bind _ behind

end Parser

/-- The token stands in the parts as a segment, and as nothing else. -/
structure Role.IsSegment (t : Token) (parts : List (Role × Token)) : Prop where
  mem : (.segment, t) ∈ parts
  eq_segment : ∀ role, (role, t) ∈ parts → role = .segment

namespace Role.IsSegment

variable {parts parts' : List (Role × Token)} {ts : List Token}

lemma mono (h : Role.IsSegment t parts) (hparts : parts' ⊆ parts) (hmem : (.segment, t) ∈ parts') :
    Role.IsSegment t parts' :=
  ⟨hmem, fun role hrole => h.eq_segment role (hparts hrole)⟩

lemma of_append_signs (h : Role.IsSegment t (parts ++ signs ts)) : Role.IsSegment t parts :=
  h.mono (List.subset_append_left _ _) (by simpa [signs] using h.mem)

lemma of_cons_sign {u : Token} (h : Role.IsSegment t ((.sign, u) :: parts)) :
    Role.IsSegment t parts :=
  h.mono (List.subset_cons_self _ _) (by simpa using h.mem)

end Role.IsSegment

/-- The first item of a list in which a segment stands stands behind items that stay well formed. -/
lemma CommaList.exists_spoiled {α : Type} {g : α → α} {part : α → List (Role × Token)}
    {ok ok' : α → Prop} {l : CommaList α} (hf : t.Spoils f) (hl : l.IsWellFormed ok)
    (hpart : ∀ a, part (g a) = (part a).map (Prod.map id f)) (ht : Role.IsSegment t (l.parts part))
    (hok : ∀ a, ok a → t ∉ (part a).map Prod.snd → ok' (g a)) :
    ∃ closed a behind, a ∈ l.items ∧ Role.IsSegment t (part a) ∧
      (∀ item ∈ closed, item.2.kind = .comma) ∧ (∀ item ∈ closed, ok' item.1) ∧
      ((l.parts part).map Prod.snd).map f = (closedParts part closed).map Prod.snd ++
        (((part a).map Prod.snd).map f ++ behind) := by
  have hitem : ∃ a ∈ l.items, (.segment, t) ∈ part a := by
    have hmem := ht.mem
    simp only [parts, closedParts, List.mem_append, List.mem_flatMap, List.mem_singleton] at hmem
    rcases hmem with ⟨item, hitem, hmem | hmem⟩ | hmem
    · exact ⟨item.1, List.mem_append_left _ (List.mem_map_of_mem hitem), hmem⟩
    · cases hmem
    · cases hlast : l.last with
      | none =>
        rw [hlast] at hmem
        cases hmem
      | some a =>
        rw [hlast] at hmem
        exact ⟨a, List.mem_append_right _ (by simp [hlast]), hmem⟩
  obtain ⟨closed, a, ha, hsegment, hclosed, hparts⟩ := exists_first hitem
  obtain ⟨behind, hsplit⟩ := hparts part
  have hsubset {a : α} (ha : a ∈ l.items) : part a ⊆ l.parts part := (isInfix_parts ha).subset
  refine ⟨closed.map (Prod.map g f), a, (behind.map Prod.snd).map f, ha,
    ht.mono (hsubset ha) hsegment, ?_, ?_, ?_⟩
  · rw [List.forall_mem_map]
    exact fun item hitem => hf.kind_eq (hl.comma item (hclosed item hitem).1) (by decide)
  · rw [List.forall_mem_map]
    intro item hitem
    have hmem : item.1 ∈ l.items :=
      List.mem_append_left _ (List.mem_map_of_mem (hclosed item hitem).1)
    refine hok item.1 (hl.items _ hmem) fun htoken => (hclosed item hitem).2 ?_
    obtain ⟨⟨role, u⟩, hrole, rfl⟩ := List.mem_map.mp htoken
    obtain rfl := ht.eq_segment role (hsubset hmem hrole)
    exact hrole
  · have hclosedMap : closedParts part (closed.map (Prod.map g f)) =
        (closedParts part closed).map (Prod.map id f) := closedParts_map hpart closed
    rw [hsplit, hclosedMap]
    simp

namespace Parser

variable {src : Source} {rule : ListRule}

/-- A group is refused at a segment in it that is a word of the grammar. -/
lemma refuses_group_of_segment (hf : t.Spoils f) (heof : src.eof.kind = .eof) {p : GroupPhrase}
    (hp : p.IsWellFormed src.host rule) (ht : Role.IsSegment t p.parts) :
    ∃ sought, Refuses src (group rule) (p.tokens.map f) (.atWord sought (f t)) := by
  have hentries : Role.IsSegment t (p.entries.parts EntryPhrase.parts) :=
    ht.of_cons_sign.of_append_signs
  obtain ⟨closed, e, behind, he, hsegment, hcomma, hok, hparts⟩ :=
    p.entries.exists_spoiled hf hp.entries EntryPhrase.parts_map hentries fun e he hmem =>
      he.map (by simp) (fun _ _ hstop => hstop) (hf.keeps hmem)
  have hwf := hp.entries.items e he
  obtain ⟨sought, hentry⟩ := refuses_entry_of_segment hf (by simp) hwf hsegment.mem
  refine ⟨sought, ?_⟩
  have htokens : p.tokens.map f =
      (f p.openBrace :: ((CommaList.closedParts EntryPhrase.parts closed).map Prod.snd ++
        e.tokens.map f)) ++ (behind ++ (p.closeBrace :: p.wordIn :: p.source).map f) := by
    rw [GroupPhrase.tokens_eq, List.map_cons, List.map_append, hparts, EntryPhrase.tokens]
    simp
  rw [htokens]
  exact (refuses_group heof hcomma hok (startsEntry_map hf hwf) hentry).append _

/-- An item is refused at a segment in it that is a word of the grammar. -/
lemma refuses_item_of_segment (hf : t.Spoils f) (heof : src.eof.kind = .eof)
    (hclose : rule.close = .closeBrace ∨ rule.close = .eof) {p : ItemPhrase}
    (hp : p.IsWellFormed src.host rule) (ht : Role.IsSegment t p.parts) :
    ∃ sought, ∀ items, Refuses src (item rule items) (p.tokens.map f) (.atWord sought (f t)) := by
  cases p with
  | entry p =>
    have hstops : [.comma, rule.close] ⊆ [TokenKind.comma, .closeBrace, .eof] := by
      rcases hclose with hclose | hclose <;> rw [hclose] <;> decide
    have hwf : p.IsWellFormed src.host [.comma, rule.close] false rule.allowMut := hp
    obtain ⟨sought, hentry⟩ := refuses_entry_of_segment hf hstops hwf ht.mem
    exact ⟨sought, refuses_item_of_entry (startsEntry_map hf hwf) hentry⟩
  | group p =>
    have hwf : p.IsWellFormed src.host rule := hp
    obtain ⟨sought, hgroup⟩ := refuses_group_of_segment hf heof hwf ht
    exact ⟨sought, refuses_item_of_group (hf.kind_eq hwf.openBrace nofun) hgroup⟩

lemma start_map (hf : t.Spoils f) {p : ItemPhrase} (hp : p.IsWellFormed host rule) :
    ∃ u more, p.tokens.map f = u :: more ∧
      u.kind ∈ TokenKind.openBrace :: TokenKind.entryStarts := by
  cases p with
  | entry p =>
    obtain ⟨u, more, htokens, hkind⟩ := startsEntry_map hf (p := p) hp
    exact ⟨u, more, htokens, List.mem_cons_of_mem _ hkind⟩
  | group p =>
    have hwf : p.IsWellFormed host rule := hp
    have hopen : (f p.openBrace).kind = .openBrace := hf.kind_eq hwf.openBrace nofun
    exact ⟨f p.openBrace, _, rfl, by rw [hopen]; exact List.mem_cons_self⟩

/-- A field list is refused at a segment in it that is a word of the grammar. -/
lemma refuses_fieldList_of_segment (hf : t.Spoils f) (heof : src.eof.kind = .eof)
    (hclose : rule.close = .closeBrace ∨ rule.close = .eof) {p : ListPhrase}
    (hp : p.IsWellFormed src.host rule) (ht : Role.IsSegment t p.parts) :
    ∃ sought, Refuses src (fieldList rule) (p.tokens.map f) (.atWord sought (f t)) := by
  have hitems : Role.IsSegment t (p.items.parts ItemPhrase.parts) := by
    rw [ListPhrase.parts] at ht
    cases hbase : p.base with
    | none => simpa [hbase] using ht
    | some b =>
      rw [hbase] at ht
      exact ht.of_append_signs
  have hgreater : rule.close ≠ .greater := by
    rcases hclose with hclose | hclose <;> rw [hclose] <;> decide
  obtain ⟨closed, a, behind, ha, hsegment, hcomma, hok, hparts⟩ :=
    p.items.exists_spoiled hf hp.items ItemPhrase.parts_map hitems fun a ha hmem =>
      ha.map rfl hgreater (fun _ _ hstop => hstop) (hf.keeps hmem)
  have hwf := hp.items.items a ha
  obtain ⟨sought, hitem⟩ := refuses_item_of_segment hf heof hclose hwf hsegment
  refine ⟨sought, ?_⟩
  have htokens : p.tokens.map f =
      ((CommaList.closedParts ItemPhrase.parts closed).map Prod.snd ++ a.tokens.map f) ++
        (behind ++ (p.base.elim [] fun base => base.1 :: base.2).map f) := by
    rw [ListPhrase.tokens_eq, List.map_append, hparts, ItemPhrase.tokens]
    simp
  rw [htokens]
  exact (refuses_fieldList hclose heof hcomma hok (start_map hf hwf) hitem).append _

end Parser

/-- A word of the grammar is not read as a segment. -/
lemma TextPhrase.Reads.ofText_reword_segment {p : TextPhrase}
    (hp : p.Reads (.dialect .python) allowBase allowMut text) (ht : (.segment, t) ∈ p.parts)
    (hword : Text.IsWord word.toList) (hkind : (Lexeme.wordKind word.toList).isSoftKeyword) :
    ∃ sought, Composition.ofText allowBase allowMut (.dialect .python) (Text.reword text t word) =
      .error (.fault (.expected sought (.text word)) t.position) := by
  have hf : t.Spoils (t.reword word) :=
    ⟨fun u hu => (Token.reword_of_ne hu).1, by rwa [Token.reword_self],
      hp.wellFormed.placed.fits _ ht⟩
  obtain ⟨eof, htokens⟩ := hp.exists_ofText_reword ht nofun hword
  let src : Source := ⟨.dialect .python, Text.reword text t word, eof⟩
  have hsegment : Role.IsSegment t p.list.parts := by
    refine ⟨?_, fun role hrole => ?_⟩
    · rw [parts] at ht
      cases hbraces : p.braces with
      | none => rwa [hbraces] at ht
      | some b => simpa [hbraces] using ht
    · obtain ⟨eof', htokens'⟩ := hp.tokens_eq_body
      have hnodup : (p.parts.map Prod.snd).Nodup := Tokens.nodup_of_ofText htokens'
      have hsame := List.inj_on_of_nodup_map hnodup (p.list_infix.subset hrole) ht rfl
      exact congrArg Prod.fst hsame
  have hpair : Token.isBracePair (p.map (t.reword word)).tokens = p.braces.isSome := by
    rw [tokens_map, hf.isBracePair_map, hp.wellFormed.isBracePair_eq]
  have hclose : (p.rule allowBase allowMut).close = .closeBrace ∨
      (p.rule allowBase allowMut).close = .eof := by
    rw [rule]
    split <;> simp
  have hwf : p.list.IsWellFormed src.host (p.rule allowBase allowMut) := hp.wellFormed.list
  obtain ⟨sought, hlist⟩ := Parser.refuses_fieldList_of_segment hf
    (Tokens.kind_eof_of_ofText htokens) hclose hwf hsegment
  have hbraces : (p.map (t.reword word)).braces.isSome = p.braces.isSome := Option.isSome_map
  have hrule : p.rule allowBase allowMut = (p.map (t.reword word)).rule allowBase allowMut := by
    rw [rule, rule, hbraces]
  rw [← hbraces, tokens_eq] at hpair
  rw [tokens_eq] at htokens
  rw [hrule, ← ListPhrase.tokens_map] at hlist
  have herror := Composition.ofText_of_refuses _ htokens hpair hlist
  refine ⟨sought, ?_⟩
  rw [herror, ReadError.atWord, Token.reword_self]

/-- In Python a word of the grammar is read as a name where it stands for one: the composition is
the same up to that name and the columns behind it. Where it stands for a segment of a function path
the field list is refused. -/
theorem ofText_reword {c : Composition}
    (h : Composition.ofText allowBase allowMut (.dialect .python) text = .ok c)
    (hword : word ∈ ["fn", "struct", "where", "pub"]) :
    ∃ p : TextPhrase, p.Reads (.dialect .python) allowBase allowMut text ∧
      c = p.list.composition Token.value text ∧
      (∀ t, (.name, t) ∈ p.parts →
        Composition.ofText allowBase allowMut (.dialect .python) (Text.reword text t word) =
          .ok ((p.list.composition (Function.update Token.value t word) text).mapPositions
            (t.makeRoom word))) ∧
      ∀ t, (.segment, t) ∈ p.parts → ∃ sought,
        Composition.ofText allowBase allowMut (.dialect .python) (Text.reword text t word) =
          .error (.fault (.expected sought (.text word)) t.position) := by
  have hwords : ∀ word ∈ ["fn", "struct", "where", "pub"], Text.IsWord word.toList ∧
      (Lexeme.wordKind word.toList).isSoftKeyword ∧ Lexeme.wordKind word.toList ≠ .wordMut := by
    decide +kernel
  obtain ⟨hisWord, hkind, hmut⟩ := hwords word hword
  obtain ⟨p, hp, rfl⟩ := Composition.ofText_iff.mp h
  exact ⟨p, hp, rfl, fun t ht => hp.ofText_reword_name ht hisWord hkind hmut,
    fun t ht => hp.ofText_reword_segment ht hisWord hkind⟩

/-- A renamed field with a modifier, in a group, and a value behind it. -/
theorem ofText_reword_renamed :
    let python := Host.dialect .python
    let text := "\x7b+total: amount\x7d in order, tax: [1]"
    let c : Composition := { items := [
      .group {
        entries := [{
          name := "amount", modifier := .clone, rename := some "total", position := ⟨1, 2⟩ }]
        source := ⟨"order", ⟨1, 21⟩⟩ },
      .entry { name := "tax", value := some ⟨"[1]", ⟨1, 33⟩⟩, position := ⟨1, 28⟩ }] }
    Composition.ofText false false python text = .ok c ∧
      ∃ p : TextPhrase, p.Reads python false false text ∧
        c = p.list.composition Token.value text ∧
        (∀ t, (.name, t) ∈ p.parts →
          Composition.ofText false false python (Text.reword text t "where") =
            .ok ((p.list.composition (Function.update Token.value t "where") text).mapPositions
              (t.makeRoom "where"))) ∧
        ∀ t, (.segment, t) ∈ p.parts → ∃ sought,
          Composition.ofText false false python (Text.reword text t "where") =
            .error (.fault (.expected sought (.text "where")) t.position) := by
  intro python text c
  have h : Composition.ofText false false python text = .ok c := by decide +kernel
  exact ⟨h, ofText_reword h (by decide)⟩

/-- A path through a function that is called `where` is refused. -/
theorem ofText_reword_pathThroughWhere :
    let python := Host.dialect .python
    let text := "[f.upper]x"
    let t : Token := { kind := .ident, value := "f", start := 1, stop := 2, position := ⟨1, 2⟩ }
    Composition.ofText false false python text =
        .ok { items := [.entry { name := "x", modifier := .custom "f.upper" }] } ∧
      Text.reword text t "where" = "[where.upper]x" ∧
      ¬∃ c, Composition.ofText false false python (Text.reword text t "where") = .ok c := by
  intro python text t
  have hrefused : Composition.ofText false false python (Text.reword text t "where") =
      .error (.fault (.expected .functionPath (.text "where")) ⟨1, 2⟩) := by decide +kernel
  refine ⟨by decide +kernel, by decide +kernel, ?_⟩
  rintro ⟨c, h⟩
  rw [hrefused] at h
  cases h

end FieldComposition
