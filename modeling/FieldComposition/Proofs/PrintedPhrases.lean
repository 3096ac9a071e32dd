import Mathlib.Data.List.Perm.Basic
import FieldComposition.Proofs.PrintedText
import FieldComposition.Proofs.ReplacedTokens

/-!
# Printing phrases

A phrase is printed in chunks (`EntryPhrase.chunks`, `GroupPhrase.chunks`): its tokens with blanks
at fixed places, and paths, values and sources as they stand in the text. The chunks print the entry
or the group that the phrase stands for (`EntryPhrase.chars_chunks`, `GroupPhrase.chars_chunks`),
and they fit together (`ItemPhrase.fitAll`). A renamed entry is printed with its target before its
mark and its modifier (`EntryPhrase.printed`), so its tokens keep their order only if it has
neither.
-/

namespace FieldComposition

open Role (signs)

def PathPhrase.chunks (p : PathPhrase) : List Chunk :=
  [.token p.openBracket, .run (p.path.map Prod.snd), .token p.closeBracket]

namespace ModifierPhrase

/-- The blank that keeps `mut` apart from the name behind it. -/
def gap (p : ModifierPhrase) : List Chunk :=
  if p.signs.getLast?.map Token.kind = some .wordMut then [.blank] else []

def chunks (p : ModifierPhrase) : List Chunk :=
  p.path.elim [] PathPhrase.chunks ++ (p.signs.map .token ++ p.gap)

end ModifierPhrase

namespace EntryPhrase

/-- A renamed entry has neither a mark nor a modifier. -/
def IsPlain (p : EntryPhrase) : Prop :=
  ∀ colon field, p.tail = .source colon field → p.mark = none ∧ p.modifier = {}

/-- The parts in the order in which they are printed. -/
def printed (p : EntryPhrase) : List (Role × Token) :=
  match p.tail with
  | .source colon field => (.name, p.name) :: (.sign, colon) ::
      (signs p.mark.toList ++ (p.modifier.parts ++ [(.name, field)]))
  | _ => p.parts

/-- The mark and the modifier. -/
def front (p : EntryPhrase) : List Chunk :=
  (p.mark.toList.flatMap fun t => [.token t, .blank]) ++ p.modifier.chunks

def chunks (p : EntryPhrase) : List Chunk :=
  match p.tail with
  | .nothing => p.front ++ [.token p.name]
  | .source colon field =>
    .token p.name :: .token colon :: .blank :: (p.front ++ [.token field])
  | .value colon ts => p.front ++ [.token p.name, .token colon, .blank, .run ts]

end EntryPhrase

def CommaList.chunks {α : Type} (chunks : α → List Chunk) (l : CommaList α) : List Chunk :=
  (l.closed.flatMap fun item => chunks item.1 ++ [.token item.2, .blank]) ++ l.last.elim [] chunks

def GroupPhrase.printed (p : GroupPhrase) : List (Role × Token) :=
  (.sign, p.openBrace) ::
    (p.entries.parts EntryPhrase.printed ++ signs (p.closeBrace :: p.wordIn :: p.source))

def GroupPhrase.chunks (p : GroupPhrase) : List Chunk :=
  .token p.openBrace :: .blank :: (p.entries.chunks EntryPhrase.chunks ++
    [.blank, .token p.closeBrace, .blank, .token p.wordIn, .blank, .run p.source])

namespace ItemPhrase

def printed : ItemPhrase → List (Role × Token)
  | entry p => p.printed
  | group p => p.printed

def chunks : ItemPhrase → List Chunk
  | entry p => p.chunks
  | group p => p.chunks

end ItemPhrase

/-! ## The order in which parts are printed -/

namespace EntryPhrase

variable {p : EntryPhrase}

lemma printed_eq (h : p.IsPlain) : p.printed = p.parts := by
  rw [printed]
  split
  · rename_i colon field htail
    obtain ⟨hmark, hmodifier⟩ := h colon field htail
    rw [parts, htail, hmark, hmodifier]
    rfl
  · rfl

lemma printed_perm (p : EntryPhrase) : p.printed.Perm p.parts := by
  rw [printed]
  split
  · rename_i colon field htail
    have hfield : [((.name, p.name) : Role × Token), (.sign, colon)] ++ (signs p.mark.toList ++
        (p.modifier.parts ++ [(.name, field)])) =
      ([(.name, p.name), (.sign, colon)] ++ (signs p.mark.toList ++ p.modifier.parts)) ++
        [(.name, field)] := by simp
    have hparts : p.parts = ((signs p.mark.toList ++ p.modifier.parts) ++
        [(.name, p.name), (.sign, colon)]) ++ [(.name, field)] := by
      rw [parts, htail]
      simp [EntryTail.parts]
    rw [hparts]
    exact (List.Perm.of_eq hfield).trans (List.perm_append_comm.append_right _)
  · exact List.Perm.refl _

variable {f : Token → Token}

lemma isPlain_of_map (h : (p.map f).IsPlain) : p.IsPlain := by
  intro colon field htail
  obtain ⟨hmark, hmodifier⟩ := h (f colon) (f field) (congrArg (EntryTail.map f) htail)
  obtain ⟨hpath, hsigns⟩ := ModifierPhrase.mk.inj hmodifier
  refine ⟨Option.map_eq_none_iff.mp hmark, ?_⟩
  exact congrArg₂ ModifierPhrase.mk (Option.map_eq_none_iff.mp hpath)
    (List.map_eq_nil_iff.mp hsigns)

lemma printed_map (p : EntryPhrase) : (p.map f).printed = p.printed.map (Prod.map id f) := by
  cases htail : p.tail with
  | nothing =>
    have hmap : (p.map f).tail = .nothing := congrArg (EntryTail.map f) htail
    rw [printed, hmap, printed, htail]
    exact p.parts_map
  | value colon ts =>
    have hmap : (p.map f).tail = .value (f colon) (ts.map f) := congrArg (EntryTail.map f) htail
    rw [printed, hmap, printed, htail]
    exact p.parts_map
  | source colon field =>
    have hmap : (p.map f).tail = .source (f colon) (f field) := congrArg (EntryTail.map f) htail
    rw [printed, hmap, printed, htail]
    simp only [map, ModifierPhrase.parts_map, List.map_cons, List.map_append, Role.map_signs]
    cases p.mark <;> rfl

end EntryPhrase

section

variable {α : Type} {part part' : α → List (Role × Token)} {l : CommaList α}

lemma CommaList.parts_congr (h : ∀ a ∈ l.items, part a = part' a) :
    l.parts part = l.parts part' := by
  have hclosed : closedParts part l.closed = closedParts part' l.closed :=
    List.flatMap_congr fun item hitem => by
      rw [h item.1 (List.mem_append_left _ (List.mem_map_of_mem hitem))]
  rw [parts, parts, hclosed]
  cases hlast : l.last with
  | none => rfl
  | some a => exact congrArg (_ ++ ·) (h a (List.mem_append_right _ (by simp [hlast])))

lemma CommaList.parts_perm (h : ∀ a, (part a).Perm (part' a)) :
    (l.parts part).Perm (l.parts part') := by
  have hclosed : (closedParts part l.closed).Perm (closedParts part' l.closed) :=
    List.Perm.flatMap_left _ fun item _ => (h item.1).append_right _
  refine hclosed.append ?_
  cases l.last with
  | none => exact List.Perm.refl _
  | some a => exact h a

end

lemma GroupPhrase.printed_eq {p : GroupPhrase} (h : ∀ e ∈ p.entries.items, e.IsPlain) :
    p.printed = p.parts := by
  rw [printed, CommaList.parts_congr fun e he => EntryPhrase.printed_eq (h e he), parts]

lemma GroupPhrase.printed_perm (p : GroupPhrase) : p.printed.Perm p.parts :=
  ((CommaList.parts_perm EntryPhrase.printed_perm).append_right _).cons _

lemma GroupPhrase.printed_map {f : Token → Token} (p : GroupPhrase) :
    (p.map f).printed = p.printed.map (Prod.map id f) := by
  rw [printed, printed, map, CommaList.parts_map EntryPhrase.printed_map]
  simp

/-- The entries of an item. -/
def ItemPhrase.entries : ItemPhrase → List EntryPhrase
  | entry p => [p]
  | group p => p.entries.items

/-- No comma stands behind the last entry of a group. -/
def ItemPhrase.IsTrimmed : ItemPhrase → Prop
  | entry _ => True
  | group p => p.entries.last.isSome

def Item.render : Item → String
  | entry e => e.render
  | group g => g.render

lemma ItemPhrase.printed_eq {p : ItemPhrase} (h : ∀ e ∈ p.entries, e.IsPlain) :
    p.printed = p.parts := by
  cases p with
  | entry p => exact EntryPhrase.printed_eq (h p List.mem_cons_self)
  | group p => exact GroupPhrase.printed_eq h


/-! ## The tokens and runs of the chunks -/

lemma PathPhrase.tokens_chunks (p : PathPhrase) :
    p.chunks.flatMap Chunk.tokens = p.parts.map Prod.snd := by
  simp [chunks, parts, Chunk.tokens]

lemma ModifierPhrase.tokens_chunks (p : ModifierPhrase) :
    p.chunks.flatMap Chunk.tokens = p.parts.map Prod.snd := by
  have hsigns : (p.signs.map Chunk.token).flatMap Chunk.tokens = p.signs := by
    simp [List.flatMap_map, Chunk.tokens]
  have hgap : p.gap.flatMap Chunk.tokens = [] := by
    rw [gap]
    split <;> rfl
  rw [chunks, List.flatMap_append, List.flatMap_append, hsigns, hgap, List.append_nil, parts,
    List.map_append, Role.map_snd_signs]
  cases p.path with
  | none => rfl
  | some b => exact congrArg (· ++ p.signs) b.tokens_chunks

namespace EntryPhrase

lemma tokens_front (p : EntryPhrase) :
    p.front.flatMap Chunk.tokens = p.mark.toList ++ p.modifier.parts.map Prod.snd := by
  rw [front, List.flatMap_append, p.modifier.tokens_chunks]
  cases p.mark <;> rfl

lemma tokens_chunks (p : EntryPhrase) :
    p.chunks.flatMap Chunk.tokens = p.printed.map Prod.snd := by
  rw [chunks, printed]
  cases htail : p.tail <;>
    simp [parts, htail, EntryTail.parts, tokens_front, Chunk.tokens]

end EntryPhrase

lemma CommaList.tokens_chunks {α : Type} {chunks : α → List Chunk} {part : α → List (Role × Token)}
    (h : ∀ a, (chunks a).flatMap Chunk.tokens = (part a).map Prod.snd) (l : CommaList α) :
    (l.chunks chunks).flatMap Chunk.tokens = (l.parts part).map Prod.snd := by
  have hclosed (closed : List (α × Token)) :
      (closed.flatMap fun item => chunks item.1 ++ [.token item.2, .blank]).flatMap Chunk.tokens =
        (closedParts part closed).map Prod.snd := by
    rw [closedParts, List.flatMap_assoc, List.map_flatMap]
    refine List.flatMap_congr fun item _ => ?_
    rw [List.flatMap_append, h, List.map_append]
    rfl
  rw [CommaList.chunks, List.flatMap_append, hclosed, parts, List.map_append]
  cases l.last with
  | none => rfl
  | some a => exact congrArg (_ ++ ·) (h a)

lemma GroupPhrase.tokens_chunks (p : GroupPhrase) :
    p.chunks.flatMap Chunk.tokens = p.printed.map Prod.snd := by
  have hentries := CommaList.tokens_chunks EntryPhrase.tokens_chunks p.entries
  rw [chunks, List.flatMap_cons, List.flatMap_cons, List.flatMap_append, hentries, printed]
  simp [Chunk.tokens]

lemma ItemPhrase.tokens_chunks (p : ItemPhrase) :
    p.chunks.flatMap Chunk.tokens = p.printed.map Prod.snd := by
  cases p with
  | entry p => exact p.tokens_chunks
  | group p => exact p.tokens_chunks

lemma EntryPhrase.run_mem_chunks {p : EntryPhrase} {run : List (Role × Token)}
    (h : run ∈ p.runs) : .run (run.map Prod.snd) ∈ p.chunks := by
  rcases List.mem_append.mp h with hmodifier | htail
  · obtain ⟨b, hb, rfl⟩ := List.mem_map.mp hmodifier
    have hchunks : .run (b.path.map Prod.snd) ∈ p.front := by
      rw [front, ModifierPhrase.chunks, Option.mem_toList.mp hb]
      exact List.mem_append_right _ (List.mem_append_left _ (by simp [PathPhrase.chunks]))
    rw [chunks]
    split <;> simp [hchunks]
  · rw [chunks]
    cases htailEq : p.tail with
    | value colon ts =>
      rw [htailEq] at htail
      obtain rfl := List.mem_singleton.mp htail
      simp
    | nothing => rw [htailEq] at htail; cases htail
    | source => rw [htailEq] at htail; cases htail

lemma CommaList.mem_chunks {α : Type} {chunks : α → List Chunk} {l : CommaList α} {a : α}
    (ha : a ∈ l.items) {c : Chunk} (hc : c ∈ chunks a) : c ∈ l.chunks chunks := by
  rcases List.mem_append.mp ha with hclosed | hlast
  · obtain ⟨item, hitem, rfl⟩ := List.mem_map.mp hclosed
    exact List.mem_append_left _ (List.mem_flatMap.mpr ⟨item, hitem, List.mem_append_left _ hc⟩)
  · rw [CommaList.chunks, Option.mem_toList.mp hlast]
    exact List.mem_append_right _ hc

lemma GroupPhrase.run_mem_chunks {p : GroupPhrase} {run : List (Role × Token)}
    (h : run ∈ p.runs) : .run (run.map Prod.snd) ∈ p.chunks := by
  refine List.mem_cons_of_mem _ (List.mem_cons_of_mem _ (List.mem_append.mpr ?_))
  rcases List.mem_append.mp h with hentries | hsource
  · obtain ⟨e, he, hrun⟩ := List.mem_flatMap.mp hentries
    exact .inl (CommaList.mem_chunks he (EntryPhrase.run_mem_chunks hrun))
  · obtain rfl := List.mem_singleton.mp hsource
    exact .inr (by simp)

lemma ItemPhrase.run_mem_chunks {p : ItemPhrase} {run : List (Role × Token)}
    (h : run ∈ p.runs) : .run (run.map Prod.snd) ∈ p.chunks := by
  cases p with
  | entry p => exact EntryPhrase.run_mem_chunks h
  | group p => exact GroupPhrase.run_mem_chunks h

/-! ## How the chunks fit together -/

/-- Parts of which the tokens stand in a text, and runs of which the tokens stand there one behind
the other. -/
structure Role.StandIn (body : List Token) (parts : List (Role × Token))
    (runs : List (List (Role × Token))) : Prop where
  mem : ∀ part ∈ parts, part.2 ∈ body
  run : ∀ run ∈ runs, run.map Prod.snd <:+: body

lemma Role.StandIn.mono {body : List Token} {parts parts' : List (Role × Token)}
    {runs runs' : List (List (Role × Token))} (h : Role.StandIn body parts runs)
    (hparts : parts' ⊆ parts) (hruns : runs' ⊆ runs) : Role.StandIn body parts' runs' :=
  ⟨fun part hpart => h.mem part (hparts hpart), fun run hrun => h.run run (hruns hrun)⟩

section

variable {host : Host} {text : String} {tokens : Tokens} {next : Option Char}
  {stops : List TokenKind} {inGroup allowMut : Bool}

namespace Chunk

variable {t : Token} {chunks : List Chunk}

@[simp] lemma first_blank : first text (.blank :: chunks) next = some ' ' := rfl

lemma first_token {c : Char} {rest : List Char} (h : t.value.toList = c :: rest) :
    first text (.token t :: chunks) next = some c := by
  rw [first, List.flatMap_cons, chars, h]
  rfl

end Chunk

variable (htokens : Tokens.ofText host text = .ok tokens)

include htokens

lemma Chunk.first_sign {t : Token} {chunks : List Chunk} {c : Char} (ht : t ∈ tokens.body)
    (h : (c, t.kind) ∈ Lexeme.signs) : first text (.token t :: chunks) next = some c :=
  first_token (Token.value_of_sign htokens ht h)

lemma Chunk.first_word {t : Token} {chunks : List Chunk} (ht : t ∈ tokens.body)
    (hkind : t.kind.isWord) : ∀ d ∈ first text (.token t :: chunks) next, Text.isWordChar d := by
  obtain ⟨hword, -⟩ := Token.isWord_of_mem htokens ht hkind
  obtain ⟨c, rest, hvalue⟩ := List.exists_cons_of_ne_nil hword.ne_nil
  rw [first_token hvalue]
  rintro d ⟨⟩
  exact hword.isWordChar c (by rw [hvalue]; exact List.mem_cons_self)

lemma PathPhrase.fitAll {p : PathPhrase} (hp : p.IsWellFormed)
    (h : Role.StandIn tokens.body p.parts [p.path]) : Chunk.FitAll host text p.chunks next := by
  have hopen : p.openBracket ∈ tokens.body := h.mem (.sign, p.openBracket) (by simp [parts])
  have hclose : p.closeBracket ∈ tokens.body := h.mem (.sign, p.closeBracket) (by simp [parts])
  have hcloseSign : (']', p.closeBracket.kind) ∈ Lexeme.signs := by rw [hp.closeBracket]; decide
  have hne : p.path.map Prod.snd ≠ [] := by
    rw [map_snd_path]
    simp
  refine ⟨?_, ?_, ?_, trivial⟩
  · exact Chunk.fits_sign (c := '[') htokens hopen (by rw [hp.openBracket]; decide)
      fun _ _ => Lexeme.goesOn_mark (by decide)
  · refine Chunk.fits_run_of_word htokens (h.run _ List.mem_cons_self) hne ?_ ?_
    · exact fun t ht => by rw [hp.kind_last t ht]; rfl
    · rw [Chunk.first_sign htokens hclose hcloseSign]
      rintro d ⟨⟩
      exact Text.isWordChar_eq_false (by decide)
  · exact Chunk.fits_sign htokens hclose hcloseSign fun _ _ => Lexeme.goesOn_mark (by decide)

lemma ModifierPhrase.fitAll {p : ModifierPhrase} (hp : p.IsWellFormed)
    (h : Role.StandIn tokens.body p.parts p.runs) (hnext : ∀ d ∈ next, Text.isWordChar d) :
    Chunk.FitAll host text p.chunks next := by
  have hsign {t : Token} (ht : t ∈ p.signs) : t ∈ tokens.body :=
    h.mem (.sign, t) (List.mem_append_right _ (List.mem_map_of_mem ht))
  refine Chunk.fitAll_append.mpr ⟨?_, ?_⟩
  · cases hpath : p.path with
    | none => trivial
    | some b =>
      have hb : b.parts ⊆ p.parts := by
        rw [parts, hpath]
        exact List.subset_append_left _ _
      exact PathPhrase.fitAll htokens (hp.path b hpath) (h.mono hb (by simp [runs, hpath]))
  have hword {d : Char} (hd : d ∈ next) {c : Char} : Lexeme.goesOn c d = false :=
    Lexeme.goesOn_wordChar (hnext d hd)
  have hkinds := Modifier.Kind.ofSigns?_isSome hp.kind
  rw [gap]
  generalize p.signs = ts at hkinds hsign
  rcases ts with _ | ⟨t, _ | ⟨u, _ | ⟨_, _⟩⟩⟩
  · trivial
  · have ht := hsign List.mem_cons_self
    simp at hkinds
    have hkind : t.kind ≠ .wordMut ∧ ∃ c, (c, t.kind) ∈ Lexeme.signs := by
      rcases hkinds with hkind | ⟨-, hkind | hkind⟩
      · exact ⟨by simp [hkind], '&', by rw [hkind]; decide⟩
      · exact ⟨by simp [hkind], '+', by rw [hkind]; decide⟩
      · exact ⟨by simp [hkind], '>', by rw [hkind]; decide⟩
    obtain ⟨hmut, c, hc⟩ := hkind
    have hgap : ¬(([t] : List Token).getLast?.map Token.kind = some .wordMut) := by simpa using hmut
    rw [if_neg hgap]
    exact ⟨Chunk.fits_sign htokens ht hc fun d hd => hword hd, trivial⟩
  · have ht := hsign List.mem_cons_self
    have hu := hsign (List.mem_cons_of_mem _ List.mem_cons_self)
    simp at hkinds
    rcases hkinds with ⟨htk, huk⟩ | ⟨-, htk, huk⟩
    · have hgap : ([t, u] : List Token).getLast?.map Token.kind = some .wordMut := by simp [huk]
      rw [if_pos hgap]
      refine ⟨?_, ?_, Chunk.fits_blank, trivial⟩
      · refine Chunk.fits_sign (c := '&') htokens ht (by rw [htk]; decide) fun d hd => ?_
        exact Lexeme.goesOn_wordChar (Chunk.first_word htokens hu (by rw [huk]; rfl) d hd)
      · refine Chunk.fits_word htokens hu (by rw [huk]; rfl) ?_
        rintro d ⟨⟩
        exact Text.isWordChar_eq_false (by decide)
    · have hgap : ¬(([t, u] : List Token).getLast?.map Token.kind = some .wordMut) := by simp [huk]
      rw [if_neg hgap]
      refine ⟨?_, ?_, trivial⟩
      · exact Chunk.fits_sign (c := '+') htokens ht (by rw [htk]; decide)
          fun _ _ => Lexeme.goesOn_mark (by decide)
      · exact Chunk.fits_sign (c := '>') htokens hu (by rw [huk]; decide) fun d hd => hword hd
  · simp at hkinds

namespace EntryPhrase

variable {p : EntryPhrase} (hp : p.IsWellFormed host stops inGroup allowMut)
  (h : Role.StandIn tokens.body p.parts p.runs)

include hp h

lemma fitAll_front (hnext : ∀ d ∈ next, Text.isWordChar d) :
    Chunk.FitAll host text p.front next := by
  refine Chunk.fitAll_append.mpr ⟨?_, p.modifier.fitAll htokens hp.modifier (h.mono ?_ ?_) hnext⟩
  · cases hmark : p.mark with
    | none => trivial
    | some t =>
      obtain ⟨hkind, -⟩ := hp.mark t hmark
      have ht : t ∈ tokens.body := h.mem (.sign, t) (by simp [parts, hmark, signs])
      refine ⟨Chunk.fits_word htokens ht (by rw [hkind]; rfl) ?_, Chunk.fits_blank, trivial⟩
      rintro d ⟨⟩
      exact Text.isWordChar_eq_false (by decide)
  · exact fun _ hpart => by simp [parts, hpart]
  · exact List.subset_append_left _ _

lemma fitAll (hword : ∀ d ∈ next, Text.isWordChar d = false)
    (hnext : inGroup = false → ∀ d ∈ next, d ∈ ['(', ')', ',']) :
    Chunk.FitAll host text p.chunks next := by
  have hisWord := TokenKind.isWord_of_isSoftKeyword (Host.isSoftKeyword_of_isName hp.name)
  have hname : p.name ∈ tokens.body := h.mem (.name, p.name) (by simp [parts])
  have hfront (behind : List Chunk) {t : Token} (ht : t ∈ tokens.body) (hkind : t.kind.isWord) :
      Chunk.FitAll host text p.front (Chunk.first text (.token t :: behind) next) :=
    fitAll_front htokens hp h (Chunk.first_word htokens ht hkind)
  -- A colon ends the name before it, and no operator goes on with it before a blank.
  have hcolon (behind : List Chunk) {colon : Token} (hmem : (.sign, colon) ∈ p.tail.parts)
      (hkind : colon.kind = .colon) (hbehind : Chunk.FitAll host text behind next) :
      Chunk.FitAll host text (.token p.name :: .token colon :: .blank :: behind) next := by
    have ht : colon ∈ tokens.body := h.mem (.sign, colon) (by simp [parts, hmem])
    have hsign : (':', colon.kind) ∈ Lexeme.signs := by rw [hkind]; decide
    refine ⟨Chunk.fits_word htokens hname hisWord ?_, Chunk.fits_sign htokens ht hsign ?_,
      Chunk.fits_blank, hbehind⟩
    · rw [Chunk.first_sign htokens ht hsign]
      rintro d ⟨⟩
      exact Text.isWordChar_eq_false (by decide)
    · rintro d ⟨⟩
      decide
  have hwf := hp.tail
  rw [chunks]
  cases htail : p.tail with
  | nothing =>
    exact Chunk.fitAll_append.mpr
      ⟨hfront [] hname hisWord, Chunk.fits_word htokens hname hisWord hword, trivial⟩
  | source colon field =>
    rw [htail] at hwf
    have hfield : field ∈ tokens.body :=
      h.mem (.name, field) (by simp [parts, htail, EntryTail.parts])
    have hfieldWord := TokenKind.isWord_of_isSoftKeyword (Host.isSoftKeyword_of_isName hwf.2.2)
    refine hcolon _ (by simp [htail, EntryTail.parts]) hwf.2.1 (Chunk.fitAll_append.mpr
      ⟨hfront [] hfield hfieldWord, Chunk.fits_word htokens hfield hfieldWord hword, trivial⟩)
  | value colon ts =>
    rw [htail] at hwf
    have hrun := h.run (signs ts) (List.mem_append_right _ (by simp [htail, EntryTail.runs]))
    rw [Role.map_snd_signs] at hrun
    refine Chunk.fitAll_append.mpr ⟨hfront _ hname hisWord,
      hcolon _ (by simp [htail, EntryTail.parts, signs]) hwf.2.1 ⟨?_, trivial⟩⟩
    exact Chunk.fits_run htokens hrun hwf.2.2.1 (hnext hwf.1)

end EntryPhrase

/-- Chunks of a list fit if those of each item fit before a comma and those of the last one before
what follows. -/
lemma CommaList.fitAll {α : Type} {ok : α → Prop} {chunks : α → List Chunk} {l : CommaList α}
    (hl : l.IsWellFormed ok) (hcommas : ∀ item ∈ l.closed, item.2 ∈ tokens.body)
    (hitem : ∀ a ∈ l.items, ∀ d : Option Char, (d = some ',' ∨ d = next) →
      Chunk.FitAll host text (chunks a) d) : Chunk.FitAll host text (l.chunks chunks) next := by
  refine Chunk.fitAll_append.mpr ⟨?_, ?_⟩
  · have hclosed : ∀ item ∈ l.closed, item.2.kind = .comma ∧ item.2 ∈ tokens.body ∧
        Chunk.FitAll host text (chunks item.1) (some ',') := fun item hitem' =>
      ⟨hl.comma item hitem', hcommas item hitem',
        hitem item.1 (List.mem_append_left _ (List.mem_map_of_mem hitem')) _ (.inl rfl)⟩
    generalize Chunk.first text (l.last.elim [] chunks) next = behind
    generalize l.closed = closed at hclosed
    induction closed generalizing behind with
    | nil => trivial
    | cons item closed ih =>
      obtain ⟨hkind, hcomma, hfit⟩ := hclosed item List.mem_cons_self
      have hsign : (',', item.2.kind) ∈ Lexeme.signs := by rw [hkind]; decide
      rw [List.flatMap_cons, List.append_assoc]
      refine Chunk.fitAll_append.mpr ⟨?_, ?_, Chunk.fits_blank, ?_⟩
      · rwa [List.cons_append, Chunk.first_sign htokens hcomma hsign]
      · exact Chunk.fits_sign htokens hcomma hsign fun _ _ => Lexeme.goesOn_mark (by decide)
      · exact ih behind fun item hitem => hclosed item (List.mem_cons_of_mem _ hitem)
  · cases hlast : l.last with
    | none => trivial
    | some a => exact hitem a (List.mem_append_right _ (by simp [hlast])) next (.inr rfl)

lemma GroupPhrase.fitAll {p : GroupPhrase} {rule : Parser.ListRule} (hp : p.IsWellFormed host rule)
    (h : Role.StandIn tokens.body p.parts p.runs) (hnext : ∀ d ∈ next, d ∈ ['(', ')', ',']) :
    Chunk.FitAll host text p.chunks next := by
  have hmem {t : Token} (ht : t = p.openBrace ∨ t = p.closeBrace ∨ t = p.wordIn ∨ t ∈ p.source) :
      t ∈ tokens.body := h.mem (.sign, t) (sign_mem_parts ht)
  have hclose : ('}', p.closeBrace.kind) ∈ Lexeme.signs := by rw [hp.closeBrace]; decide
  have hentries : Chunk.FitAll host text (p.entries.chunks EntryPhrase.chunks) (some ' ') := by
    refine CommaList.fitAll htokens hp.entries (fun item hitem => ?_) fun e he d hd => ?_
    · exact h.mem (.sign, item.2) (List.mem_cons_of_mem _ (List.mem_append_left _
        (CommaList.comma_mem_parts hitem)))
    · have hstand := h.mono (entry_subset he) fun run hrun =>
        List.mem_append_left _ (List.mem_flatMap.mpr ⟨e, he, hrun⟩)
      refine EntryPhrase.fitAll htokens (hp.entries.items e he) hstand ?_ nofun
      rcases hd with rfl | rfl
      all_goals
        rintro d ⟨⟩
        exact Text.isWordChar_eq_false (by decide)
  have hsource := h.run (signs p.source) (List.mem_append_right _ List.mem_cons_self)
  rw [Role.map_snd_signs] at hsource
  refine ⟨?_, Chunk.fits_blank, Chunk.fitAll_append.mpr ⟨hentries, Chunk.fits_blank, ?_,
    Chunk.fits_blank, ?_, Chunk.fits_blank, ?_, trivial⟩⟩
  · exact Chunk.fits_sign (c := '{') htokens (hmem (by simp)) (by rw [hp.openBrace]; decide)
      fun _ _ => Lexeme.goesOn_mark (by decide)
  · exact Chunk.fits_sign htokens (hmem (by simp)) hclose fun _ _ => Lexeme.goesOn_mark (by decide)
  · refine Chunk.fits_word htokens (hmem (by simp)) (by rw [hp.wordIn]; rfl) ?_
    rintro d ⟨⟩
    exact Text.isWordChar_eq_false (by decide)
  · exact Chunk.fits_run htokens hsource hp.source.1 hnext

lemma ItemPhrase.fitAll {p : ItemPhrase} {rule : Parser.ListRule} (hp : p.IsWellFormed host rule)
    (h : Role.StandIn tokens.body p.parts p.runs) (hnext : ∀ d ∈ next, d ∈ ['(', ')', ',']) :
    Chunk.FitAll host text p.chunks next := by
  have hword : ∀ d ∈ next, Text.isWordChar d = false := by
    have hbreaks : ['(', ')', ','] ⊆ Text.wordBreaks := by decide
    exact fun d hd => Text.isWordChar_eq_false (hbreaks (hnext d hd))
  cases p with
  | entry p => exact EntryPhrase.fitAll htokens hp h hword fun _ => hnext
  | group p => exact GroupPhrase.fitAll htokens hp h hnext

/-! ## What the chunks print -/

lemma PathPhrase.chars_chunks {p : PathPhrase} (hp : p.IsWellFormed)
    (h : Role.StandIn tokens.body p.parts [p.path]) :
    p.chunks.flatMap (Chunk.chars text) =
      ("[" ++ Token.textOf text (p.path.map Prod.snd) ++ "]").toList := by
  have hopen : p.openBracket.value.toList = ['['] :=
    Token.value_of_sign htokens (h.mem (.sign, p.openBracket) (by simp [parts]))
      (by rw [hp.openBracket]; decide)
  have hclose : p.closeBracket.value.toList = [']'] :=
    Token.value_of_sign htokens (h.mem (.sign, p.closeBracket) (by simp [parts]))
      (by rw [hp.closeBracket]; decide)
  simp [chunks, Chunk.chars, hopen, hclose]

lemma ModifierPhrase.chars_chunks {p : ModifierPhrase} (hp : p.IsWellFormed)
    (h : Role.StandIn tokens.body p.parts p.runs) :
    p.chunks.flatMap (Chunk.chars text) =
      ((p.modifier text).render ++ (p.modifier text).gap).toList := by
  have hsigns {t : Token} (ht : t ∈ p.signs) : t ∈ tokens.body :=
    h.mem (.sign, t) (List.mem_append_right _ (List.mem_map_of_mem ht))
  have hsign {t : Token} {c : Char} (ht : t ∈ p.signs) (hc : (c, t.kind) ∈ Lexeme.signs) :
      t.value.toList = [c] := Token.value_of_sign htokens (hsigns ht) hc
  have hmut {t : Token} (ht : t ∈ p.signs) (hkind : t.kind = .wordMut) : t.value = "mut" :=
    (Token.value_of_keyword htokens (hsigns ht)).1 hkind
  have hpath : ∀ b ∈ p.path, b.chunks.flatMap (Chunk.chars text) =
      ("[" ++ Token.textOf text (b.path.map Prod.snd) ++ "]").toList := by
    intro b hb
    have hparts : b.parts ⊆ p.parts := by
      rw [parts, hb]
      exact List.subset_append_left _ _
    exact b.chars_chunks htokens (hp.path b hb) (h.mono hparts (by
      rw [runs, hb]
      exact fun _ hrun => hrun))
  obtain ⟨kind, hkind⟩ := Option.isSome_iff_exists.mp hp.kind
  rw [modifier_eq hkind]
  have hkinds := Modifier.Kind.ofSigns?_isSome hp.kind
  obtain ⟨path, ts⟩ := p
  rw [kind?] at hkind
  dsimp only at hkind hkinds hsign hmut hpath ⊢
  -- The characters of the signs and of the blank behind them.
  have hfront : (chunks ⟨path, ts⟩).flatMap (Chunk.chars text) =
      (path.elim "" fun b => "[" ++ Token.textOf text (b.path.map Prod.snd) ++ "]").toList ++
        (ts.map Chunk.token ++ gap ⟨path, ts⟩).flatMap (Chunk.chars text) := by
    rw [chunks, List.flatMap_append]
    cases path with
    | none => rfl
    | some b => exact congrArg (· ++ _) (hpath b rfl)
  rw [hfront]
  rcases ts with _ | ⟨t, _ | ⟨u, _ | ⟨_, _⟩⟩⟩
  · cases path
    all_goals
      obtain rfl := Option.some.inj hkind
      simp [gap, Modifier.Kind.withPath, Modifier.render, Modifier.gap]
  · simp at hkinds
    rcases hkinds with ht | ⟨hnone, ht | ht⟩
    · have hvalue := hsign List.mem_cons_self (c := '&') (by rw [ht]; decide)
      rw [List.map_singleton, ht] at hkind
      cases path
      all_goals
        obtain rfl := Option.some.inj hkind
        simp [gap, ht, hvalue, Chunk.chars, Modifier.Kind.withPath, Modifier.render, Modifier.gap]
    · have hvalue := hsign List.mem_cons_self (c := '+') (by rw [ht]; decide)
      obtain rfl : path = none := by simpa using hnone
      rw [List.map_singleton, ht] at hkind
      obtain rfl := Option.some.inj hkind
      simp [gap, ht, hvalue, Chunk.chars, Modifier.Kind.withPath, Modifier.render, Modifier.gap]
    · have hvalue := hsign List.mem_cons_self (c := '>') (by rw [ht]; decide)
      obtain rfl : path = none := by simpa using hnone
      rw [List.map_singleton, ht] at hkind
      obtain rfl := Option.some.inj hkind
      simp [gap, ht, hvalue, Chunk.chars, Modifier.Kind.withPath, Modifier.render, Modifier.gap]
  · simp at hkinds
    rcases hkinds with ⟨ht, hu⟩ | ⟨hnone, ht, hu⟩
    · have hvalue := hsign List.mem_cons_self (c := '&') (by rw [ht]; decide)
      have hvalue' := hmut (t := u) (by simp) hu
      rw [List.map_cons, List.map_singleton, ht, hu] at hkind
      cases path
      all_goals
        obtain rfl := Option.some.inj hkind
        simp [gap, hu, hvalue, hvalue', Chunk.chars, Modifier.Kind.withPath, Modifier.render,
          Modifier.gap]
    · have hvalue := hsign List.mem_cons_self (c := '+') (by rw [ht]; decide)
      have hvalue' := hsign (t := u) (by simp) (c := '>') (by rw [hu]; decide)
      obtain rfl : path = none := by simpa using hnone
      rw [List.map_cons, List.map_singleton, ht, hu] at hkind
      obtain rfl := Option.some.inj hkind
      simp [gap, hu, hvalue, hvalue', Chunk.chars, Modifier.Kind.withPath, Modifier.render,
        Modifier.gap]
  · simp at hkinds

lemma EntryPhrase.chars_front {p : EntryPhrase}
    (hp : p.IsWellFormed host stops inGroup allowMut)
    (h : Role.StandIn tokens.body p.parts p.runs) :
    p.front.flatMap (Chunk.chars text) = ((if p.mark.isSome then "mut " else "") ++
      (p.modifier.modifier text).render ++ (p.modifier.modifier text).gap).toList := by
  have hmodifier := p.modifier.chars_chunks htokens hp.modifier
    (h.mono (fun _ hpart => by simp [parts, hpart]) (List.subset_append_left _ _))
  rw [front, List.flatMap_append, hmodifier]
  cases hmark : p.mark with
  | none => simp
  | some t =>
    have ht : t ∈ tokens.body := h.mem (.sign, t) (by simp [parts, hmark, signs])
    have hvalue := (Token.value_of_keyword htokens ht).1 (hp.mark t hmark).1
    simp [Chunk.chars, hvalue]

lemma EntryPhrase.chars_chunks {p : EntryPhrase}
    (hp : p.IsWellFormed host stops inGroup allowMut)
    (h : Role.StandIn tokens.body p.parts p.runs) :
    p.chunks.flatMap (Chunk.chars text) = (p.entry Token.value text).render.toList := by
  have hcolon {t : Token} (ht : (.sign, t) ∈ p.tail.parts) (hkind : t.kind = .colon) :
      t.value.toList = [':'] :=
    Token.value_of_sign htokens (h.mem (.sign, t) (by simp [parts, ht])) (by rw [hkind]; decide)
  have hfront := p.chars_front htokens hp h
  have hwf := hp.tail
  rw [chunks, entry]
  cases htail : p.tail with
  | nothing => simp [hfront, EntryTail.complete, Entry.render, Chunk.chars]
  | value colon ts =>
    rw [htail] at hwf
    have hvalue := hcolon (by simp [htail, EntryTail.parts, signs]) hwf.2.1
    have htext : (Expression.ofTokens text ts).text = Token.textOf text ts := by
      obtain ⟨t, rest, rfl⟩ := List.exists_cons_of_ne_nil hwf.2.2.1
      rfl
    simp [hfront, EntryTail.complete, Entry.render, Chunk.chars, hvalue, htext]
  | source colon field =>
    rw [htail] at hwf
    have hvalue := hcolon (by simp [htail, EntryTail.parts]) hwf.2.1
    have hname : p.name ∈ tokens.body := h.mem (.name, p.name) (by simp [parts])
    have hisWord := TokenKind.isWord_of_isSoftKeyword (Host.isSoftKeyword_of_isName hp.name)
    have hne : p.name.value ≠ "" := by
      intro hempty
      exact (Token.isWord_of_mem htokens hname hisWord).1.ne_nil (by rw [hempty]; rfl)
    have hrename : Option.filter (· ≠ "") (some p.name.value) = some p.name.value := by
      simp [Option.filter, hne]
    simp only [EntryTail.complete, Entry.render, hrename]
    simp [hfront, Chunk.chars, hvalue]
    rfl

/-- What is printed for items is joined by commas and blanks. -/
lemma CommaList.chars_chunks {α : Type} {ok : α → Prop} {chunks : α → List Chunk} {l : CommaList α}
    {render : α → String} (hl : l.IsWellFormed ok) (hlast : l.last.isSome)
    (hcommas : ∀ item ∈ l.closed, item.2 ∈ tokens.body)
    (hitem : ∀ a ∈ l.items, (chunks a).flatMap (Chunk.chars text) = (render a).toList) :
    (l.chunks chunks).flatMap (Chunk.chars text) =
      (", ".intercalate (l.items.map render)).toList := by
  obtain ⟨a, ha⟩ := Option.isSome_iff_exists.mp hlast
  have hclosed : ∀ item ∈ l.closed, item.2.value.toList = [','] ∧
      (chunks item.1).flatMap (Chunk.chars text) = (render item.1).toList := fun item hitem' =>
    ⟨Token.value_of_sign htokens (hcommas item hitem') (by rw [hl.comma item hitem']; decide),
      hitem item.1 (List.mem_append_left _ (List.mem_map_of_mem hitem'))⟩
  have hlast : (chunks a).flatMap (Chunk.chars text) = (render a).toList :=
    hitem a (List.mem_append_right _ (by simp [ha]))
  rw [CommaList.chunks, items, ha, String.toList_intercalate]
  generalize l.closed = closed at hclosed
  induction closed with
  | nil => simpa using hlast
  | cons item closed ih =>
    obtain ⟨hcomma, hchars⟩ := hclosed item List.mem_cons_self
    have hrest := ih fun item hitem => hclosed item (List.mem_cons_of_mem _ hitem)
    simp only [List.flatMap_cons, List.flatMap_append, List.append_assoc, List.map_cons,
      List.cons_append] at hrest ⊢
    rw [hrest, hchars, List.intercalate_cons_of_ne_nil (by simp)]
    simp [Chunk.chars, hcomma]

lemma GroupPhrase.chars_chunks {p : GroupPhrase} {rule : Parser.ListRule}
    (hp : p.IsWellFormed host rule) (hlast : p.entries.last.isSome)
    (h : Role.StandIn tokens.body p.parts p.runs) :
    p.chunks.flatMap (Chunk.chars text) = (p.group Token.value text).render.toList := by
  have hmem {t : Token} (ht : t = p.openBrace ∨ t = p.closeBrace ∨ t = p.wordIn ∨ t ∈ p.source) :
      t ∈ tokens.body := h.mem (.sign, t) (sign_mem_parts ht)
  have hopen : p.openBrace.value.toList = ['{'] :=
    Token.value_of_sign htokens (hmem (by simp)) (by rw [hp.openBrace]; decide)
  have hclose : p.closeBrace.value.toList = ['}'] :=
    Token.value_of_sign htokens (hmem (by simp)) (by rw [hp.closeBrace]; decide)
  have hin : p.wordIn.value = "in" := (Token.value_of_keyword htokens (hmem (by simp))).2 hp.wordIn
  have hentries := p.entries.chars_chunks htokens hp.entries hlast
    (fun item hitem => h.mem (.sign, item.2) (List.mem_cons_of_mem _ (List.mem_append_left _
      (CommaList.comma_mem_parts hitem))))
    fun e he => (e.chars_chunks htokens (hp.entries.items e he)
      (h.mono (entry_subset he) fun run hrun =>
        List.mem_append_left _ (List.mem_flatMap.mpr ⟨e, he, hrun⟩)))
  have hsource : (Expression.ofTokens text p.source).text = Token.textOf text p.source := by
    obtain ⟨t, rest, hrest⟩ := List.exists_cons_of_ne_nil hp.source.1
    rw [hrest]
    rfl
  rw [chunks, List.flatMap_cons, List.flatMap_cons, List.flatMap_append, hentries, group,
    Group.render, List.map_map, hsource]
  simp [Chunk.chars, hopen, hclose, hin, Function.comp_def]

lemma ItemPhrase.chars_chunks {p : ItemPhrase} {rule : Parser.ListRule}
    (hp : p.IsWellFormed host rule) (htrimmed : p.IsTrimmed)
    (h : Role.StandIn tokens.body p.parts p.runs) :
    p.chunks.flatMap (Chunk.chars text) = (p.item Token.value text).render.toList := by
  cases p with
  | entry p => exact EntryPhrase.chars_chunks htokens hp h
  | group p => exact GroupPhrase.chars_chunks htokens hp htrimmed h

end

end FieldComposition
