import FieldComposition.Proofs.EntryReading

/-!
# Phrases with other tokens

The tokens of a phrase are replaced one by one. A phrase stays well formed if kinds are kept, but
that a name may become another name (`TextPhrase.IsWellFormed.map`), and it stands for the same
composition up to names and positions if the texts of its paths and expressions are kept
(`ListPhrase.composition_map`).
-/

namespace FieldComposition

open Role (signs)

def Expression.mapPositions (σ : Position → Position) (e : Expression) : Expression :=
  { e with position := σ e.position }

def Entry.mapPositions (σ : Position → Position) (e : Entry) : Entry :=
  { e with value := e.value.map (Expression.mapPositions σ), position := σ e.position }

def Group.mapPositions (σ : Position → Position) (g : Group) : Group where
  entries := g.entries.map (Entry.mapPositions σ)
  source := g.source.mapPositions σ
  position := σ g.position

def Item.mapPositions (σ : Position → Position) : Item → Item
  | entry e => entry (e.mapPositions σ)
  | group g => group (g.mapPositions σ)

def Composition.mapPositions (σ : Position → Position) (c : Composition) : Composition where
  items := c.items.map (Item.mapPositions σ)
  base := c.base.map (Expression.mapPositions σ)

lemma Entry.mapPositions_id : mapPositions id = id := by
  funext e
  obtain ⟨name, modifier, rename, value, mutable, position⟩ := e
  have hvalue : value.map (Expression.mapPositions id) = value := Option.map_id'
  simp [mapPositions, hvalue]

lemma Item.mapPositions_id : mapPositions id = id := by
  funext i
  cases i with
  | entry e => simp [mapPositions, Entry.mapPositions_id]
  | group g =>
    simp only [mapPositions, Group.mapPositions, Entry.mapPositions_id]
    simp [Expression.mapPositions]

lemma Composition.mapPositions_id (c : Composition) : c.mapPositions id = c := by
  have hbase : c.base.map (Expression.mapPositions id) = c.base := Option.map_id'
  rw [mapPositions, Item.mapPositions_id, List.map_id, hbase]

/-- A replacement keeps the kind of a token, but that a name may become another name that is not
`mut`. -/
def Role.Keeps (host : Host) (f : Token → Token) (part : Role × Token) : Prop :=
  (f part.2).kind = part.2.kind ∨
    (part.1 = .name ∧ host.isName (f part.2).kind ∧ (f part.2).kind ≠ .wordMut)

/-- What a phrase is read with besides its tokens: the text that it is part of, the names that
tokens stand for, and the position that is kept of a place in the text. -/
structure Role.View where
  text : String
  nameOf : Token → String := Token.value
  place : Position → Position := id

/-- A replacement of the tokens of one text by those of another one keeps the kinds of the parts of
a phrase, and their names, their positions and the texts of the runs as far as these are looked at.
-/
structure Role.Carries (host : Host) (f : Token → Token) (v v' : View)
    (parts : List (Role × Token)) (runs : List (List (Role × Token))) : Prop where
  keeps : ∀ part ∈ parts, Keeps host f part
  nameOf : ∀ part ∈ parts, part.1 = .name → v'.nameOf (f part.2) = v.nameOf part.2
  position : ∀ part ∈ parts, v'.place (f part.2).position = v.place part.2.position
  textOf : ∀ run ∈ runs,
    Token.textOf v'.text ((run.map Prod.snd).map f) = Token.textOf v.text (run.map Prod.snd)

variable {host : Host} {f : Token → Token} {v v' : Role.View}
  {parts parts' : List (Role × Token)} {runs runs' : List (List (Role × Token))}
  {stops stops' : List TokenKind} {inGroup allowMut : Bool} {rule rule' : Parser.ListRule}

lemma Role.Carries.mono (h : Role.Carries host f v v' parts runs) (hparts : parts' ⊆ parts)
    (hruns : runs' ⊆ runs) : Role.Carries host f v v' parts' runs' :=
  ⟨fun part hpart => h.keeps part (hparts hpart), fun part hpart => h.nameOf part (hparts hpart),
    fun part hpart => h.position part (hparts hpart), fun run hrun => h.textOf run (hruns hrun)⟩

lemma Role.Keeps.kind_eq {part : Role × Token} (h : Role.Keeps host f part)
    (hrole : part.1 ≠ .name) : (f part.2).kind = part.2.kind :=
  h.resolve_right fun hname => hrole hname.1

lemma Role.Keeps.kind_of_sign {t : Token} (h : Role.Keeps host f (.sign, t)) :
    (f t).kind = t.kind :=
  h.kind_eq nofun

lemma Role.Keeps.isName {t : Token} (h : Role.Keeps host f (.name, t))
    (ht : host.isName t.kind) : host.isName (f t).kind := by
  rcases h with hkind | ⟨-, hname, -⟩
  · exact hkind ▸ ht
  · exact hname

lemma Role.map_kind_of_keeps {ts : List Token} (h : ∀ part ∈ signs ts, Role.Keeps host f part) :
    (ts.map f).map Token.kind = ts.map Token.kind := by
  rw [List.map_map]
  exact List.map_congr_left fun t ht => (h _ (List.mem_map_of_mem ht)).kind_of_sign

/-- What ends an item ends it in another list as well, if that list has no other end. -/
lemma Parser.ListRule.mem_stops {kind : TokenKind} (hstops : kind = rule'.close → kind = rule.close)
    (h : kind ∈ [.comma, rule'.close]) : kind ∈ [.comma, rule.close] := by
  simp only [List.mem_cons, List.not_mem_nil, or_false] at h ⊢
  exact h.imp_right hstops

/-- Each run is a part of the parts with no name in it. -/
def Role.Holds (parts : List (Role × Token)) (runs : List (List (Role × Token))) : Prop :=
  ∀ run ∈ runs, run <:+: parts ∧ ∀ part ∈ run, part.1 ≠ .name

lemma Role.Holds.mono (h : Role.Holds parts runs) (hparts : parts <:+: parts') :
    Role.Holds parts' runs :=
  fun run hrun => ⟨(h run hrun).1.trans hparts, (h run hrun).2⟩

lemma Role.Holds.append (h : Role.Holds parts runs) (h' : Role.Holds parts runs') :
    Role.Holds parts (runs ++ runs') :=
  fun run hrun => (List.mem_append.mp hrun).elim (h run) (h' run)

lemma Role.Holds.signs {ts : List Token} (h : signs ts <:+: parts) :
    Role.Holds parts [Role.signs ts] := by
  intro run hrun
  obtain rfl := List.mem_singleton.mp hrun
  refine ⟨h, fun part hpart => ?_⟩
  obtain ⟨t, -, rfl⟩ := List.mem_map.mp hpart
  exact nofun

/-- Consecutive tokens that are kept are an expression with the same text. -/
lemma Expression.ofTokens_map {ts : List Token} (hne : ts ≠ [])
    (hposition : ∀ t ∈ ts, v'.place (f t).position = v.place t.position)
    (htext : Token.textOf v'.text (ts.map f) = Token.textOf v.text ts) :
    (ofTokens v'.text (ts.map f)).mapPositions v'.place =
      (ofTokens v.text ts).mapPositions v.place := by
  obtain ⟨t, ts, rfl⟩ := List.exists_cons_of_ne_nil hne
  rw [ofTokens, htext, ofTokens, mapPositions, mapPositions]
  exact congrArg (Expression.mk _) (hposition t List.mem_cons_self)

namespace PathPhrase

lemma path_map (p : PathPhrase) : (p.map f).path = p.path.map (Prod.map id f) := by
  have hroot : signs (p.map f).root.toList = (signs p.root.toList).map (Prod.map id f) := by
    rw [Role.map_signs, map]
    cases p.root <;> rfl
  rw [path, hroot, path, List.map_append, List.map_cons, List.map_flatMap, map, List.flatMap_map]
  rfl

lemma parts_map (p : PathPhrase) : (p.map f).parts = p.parts.map (Prod.map id f) := by
  rw [parts, path_map, parts, List.map_cons, List.map_append]
  rfl

lemma holds (p : PathPhrase) : Role.Holds p.parts [p.path] := by
  intro run hrun
  obtain rfl := List.mem_singleton.mp hrun
  refine ⟨⟨[(.sign, p.openBracket)], [(.sign, p.closeBracket)], rfl⟩, fun part hpart => ?_⟩
  simp only [path, signs, List.mem_append, List.mem_map, List.mem_cons, List.mem_flatMap,
    List.not_mem_nil, or_false] at hpart
  rcases hpart with ⟨t, -, rfl⟩ | rfl | ⟨s, -, rfl | rfl⟩ <;> simp

lemma IsWellFormed.map {p : PathPhrase} (h : p.IsWellFormed)
    (hf : ∀ part ∈ p.parts, Role.Keeps host f part) : (p.map f).IsWellFormed := by
  have hsign {t : Token} (ht : (Role.sign, t) ∈ p.parts) : (f t).kind = t.kind :=
    (hf _ ht).kind_of_sign
  have hsegment {t : Token} (ht : (Role.segment, t) ∈ p.parts) : (f t).kind = t.kind :=
    (hf _ ht).kind_eq nofun
  refine ⟨?_, ?_, ?_, ?_, ?_⟩
  · exact (hsign (by simp [parts])).trans h.openBracket
  · intro t ht
    obtain ⟨u, hu, rfl⟩ := Option.map_eq_some_iff.mp ht
    exact (hsign (by simp [parts, path, signs, hu])).trans (h.root u hu)
  · exact (hsegment (by simp [parts, path])).trans h.first
  · intro s hs
    obtain ⟨q, hq, rfl⟩ := List.mem_map.mp hs
    obtain ⟨hseparator, hname⟩ := h.segments q hq
    have hpath {part : Role × Token} (hpart : part ∈ [(Role.sign, q.1), (Role.segment, q.2)]) :
        part ∈ p.parts := by
      refine List.mem_cons_of_mem _ (List.mem_append_left _ ?_)
      refine List.mem_append_right _ (List.mem_cons_of_mem _ ?_)
      exact List.mem_flatMap.mpr ⟨q, hq, hpart⟩
    have hkind : (f q.1).kind = q.1.kind := hsign (hpath (by simp))
    exact ⟨hkind.symm ▸ hseparator, (hsegment (hpath (by simp))).trans hname⟩
  · exact (hsign (by simp [parts])).trans h.closeBracket

end PathPhrase

namespace ModifierPhrase

lemma parts_map (p : ModifierPhrase) : (p.map f).parts = p.parts.map (Prod.map id f) := by
  rw [parts, parts, List.map_append, Role.map_signs, map]
  cases p.path with
  | none => rfl
  | some b => exact congrArg (· ++ _) b.parts_map

lemma holds (p : ModifierPhrase) : Role.Holds p.parts p.runs := by
  rw [runs, parts]
  cases p.path with
  | none => exact List.forall_mem_nil _
  | some b => exact b.holds.mono (List.prefix_append _ _).isInfix

lemma kind?_map {p : ModifierPhrase} (hf : ∀ part ∈ p.parts, Role.Keeps host f part) :
    (p.map f).kind? = p.kind? := by
  have hsigns : (p.signs.map f).map Token.kind = p.signs.map Token.kind :=
    Role.map_kind_of_keeps fun part hpart => hf part (List.mem_append_right _ hpart)
  rw [kind?, kind?, map, hsigns, Option.isSome_map]

lemma IsWellFormed.map {p : ModifierPhrase} (h : p.IsWellFormed)
    (hf : ∀ part ∈ p.parts, Role.Keeps host f part) : (p.map f).IsWellFormed := by
  refine ⟨fun b hb => ?_, by rw [kind?_map hf]; exact h.kind⟩
  obtain ⟨b, hpath, rfl⟩ := Option.map_eq_some_iff.mp hb
  refine (h.path b hpath).map fun part hpart => hf part (List.mem_append_left _ ?_)
  rw [hpath]
  exact hpart

lemma modifier_map {p : ModifierPhrase} (h : Role.Carries host f v v' p.parts p.runs) :
    (p.map f).modifier v'.text = p.modifier v.text := by
  rw [modifier, kind?_map h.keeps, modifier, map]
  cases hpath : p.path with
  | none => rfl
  | some b =>
    have htext := h.textOf b.path (by simp [runs, hpath])
    have hrun : ((b.map f).path.map Prod.snd) = (b.path.map Prod.snd).map f := by
      rw [b.path_map, List.map_map, List.map_map]
      rfl
    rw [← hrun] at htext
    exact congrArg (Modifier.Kind.withPath · _) htext

end ModifierPhrase

namespace EntryTail

lemma parts_map (tail : EntryTail) : (tail.map f).parts = tail.parts.map (Prod.map id f) := by
  cases tail with
  | nothing => rfl
  | source => rfl
  | value colon ts => exact (Role.map_signs f (colon :: ts)).symm

lemma holds (tail : EntryTail) : Role.Holds tail.parts tail.runs := by
  cases tail with
  | nothing => exact nofun
  | source => exact nofun
  | value colon ts => exact .signs (List.suffix_cons _ _).isInfix

lemma IsWellFormed.map {tail : EntryTail} {name name' : String}
    (h : tail.IsWellFormed host stops inGroup name) (hgreater : .greater ∉ stops')
    (hstops : ∀ part ∈ tail.parts, part.2.kind ∈ stops' → part.2.kind ∈ stops)
    (hf : ∀ part ∈ tail.parts, Role.Keeps host f part) :
    (tail.map f).IsWellFormed host stops' inGroup name' := by
  cases tail with
  | nothing => trivial
  | source colon field =>
    obtain ⟨hgroup, hkind, hfield⟩ := h
    refine ⟨hgroup, ?_, (hf (.name, field) (by simp [parts])).isName hfield⟩
    exact ((hf (.sign, colon) (by simp [parts])).kind_of_sign).trans hkind
  | value colon ts =>
    obtain ⟨hgroup, hkind, hvalue⟩ := h
    have hts : (ts.map f).map Token.kind = ts.map Token.kind :=
      Role.map_kind_of_keeps fun part hpart => hf part (List.mem_cons_of_mem _ hpart)
    refine ⟨hgroup, ?_, hvalue.of_kinds hts rfl hgreater fun t ht => ?_⟩
    · exact ((hf (.sign, colon) List.mem_cons_self).kind_of_sign).trans hkind
    · exact hstops (.sign, t) (List.mem_cons_of_mem _ (List.mem_map_of_mem ht))

lemma complete_map {tail : EntryTail} {plain plain' : Entry} {name : String}
    (h : tail.IsWellFormed host stops inGroup name)
    (hplain : plain'.mapPositions v'.place = plain.mapPositions v.place)
    (hf : Role.Carries host f v v' tail.parts tail.runs) :
    ((tail.map f).complete v'.nameOf v'.text plain').mapPositions v'.place =
      (tail.complete v.nameOf v.text plain).mapPositions v.place := by
  cases tail with
  | nothing => exact hplain
  | source colon field =>
    have hfield : v'.nameOf (f field) = v.nameOf field :=
      hf.nameOf (.name, field) (by simp [parts]) rfl
    have hname : plain'.name = plain.name := by
      have hnames := congrArg Entry.name hplain
      exact hnames
    have hrenamed := congrArg
      (fun e : Entry => { e with name := v.nameOf field, rename := some plain.name }) hplain
    rw [map, complete, complete, hfield, hname]
    exact hrenamed
  | value colon ts =>
    have htext := hf.textOf (signs ts) (by simp [runs])
    rw [Role.map_snd_signs] at htext
    have hvalue := Expression.ofTokens_map h.2.2.1
      (fun t ht => hf.position (.sign, t) (List.mem_cons_of_mem _ (List.mem_map_of_mem ht))) htext
    have hcompleted := congrArg
      (fun e : Entry => { e with
        value := some ((Expression.ofTokens v.text ts).mapPositions v.place) }) hplain
    rw [map, complete, complete, Entry.mapPositions, Option.map_some, hvalue]
    exact hcompleted

end EntryTail

namespace EntryPhrase

lemma parts_map (p : EntryPhrase) : (p.map f).parts = p.parts.map (Prod.map id f) := by
  have hmark : signs (p.map f).mark.toList = (signs p.mark.toList).map (Prod.map id f) := by
    rw [Role.map_signs, map]
    cases p.mark <;> rfl
  rw [parts, hmark, parts, List.map_append, List.map_append, List.map_cons,
    ← p.modifier.parts_map, ← p.tail.parts_map]
  rfl

lemma holds (p : EntryPhrase) : Role.Holds p.parts p.runs := by
  refine (p.modifier.holds.mono ?_).append (p.tail.holds.mono ?_)
  · exact (List.prefix_append _ _).isInfix.trans (List.suffix_append _ _).isInfix
  · have htail : p.tail.parts <:+ p.modifier.parts ++ (.name, p.name) :: p.tail.parts :=
      (List.suffix_cons _ _).trans (List.suffix_append _ _)
    exact (htail.trans (List.suffix_append _ _)).isInfix

lemma IsWellFormed.map {p : EntryPhrase} (h : p.IsWellFormed host stops inGroup allowMut)
    (hgreater : .greater ∉ stops')
    (hstops : ∀ part ∈ p.parts, part.2.kind ∈ stops' → part.2.kind ∈ stops)
    (hf : ∀ part ∈ p.parts, Role.Keeps host f part) :
    (p.map f).IsWellFormed host stops' inGroup allowMut := by
  have htail : p.tail.parts ⊆ p.parts := fun part hpart => by simp [parts, hpart]
  have hname : Role.Keeps host f (.name, p.name) := hf _ (by simp [parts])
  refine ⟨fun t ht => ?_, h.modifier.map fun part hpart => hf part (by simp [parts, hpart]),
    hname.isName h.name, fun hamp hmut => ?_,
    h.tail.map hgreater (fun part hpart => hstops part (htail hpart))
      fun part hpart => hf part (htail hpart)⟩
  · obtain ⟨u, hu, rfl⟩ := Option.map_eq_some_iff.mp ht
    have hkind : (f u).kind = u.kind :=
      (hf (.sign, u) (by simp [parts, signs, hu])).kind_of_sign
    exact hkind ▸ h.mark u hu
  · have hsigns : (p.modifier.signs.map f).map Token.kind = p.modifier.signs.map Token.kind :=
      Role.map_kind_of_keeps fun part hpart => hf part (by
        simp only [parts, ModifierPhrase.parts, List.mem_append]
        exact .inr (.inl (.inr hpart)))
    have hlast : (p.modifier.signs.map f).getLast?.map Token.kind =
        p.modifier.signs.getLast?.map Token.kind := by
      rw [← List.getLast?_map, hsigns, List.getLast?_map]
    rcases hname with hkind | ⟨-, -, hne⟩
    · exact h.name_ne_mut (hlast.symm.trans hamp) (hkind.symm.trans hmut)
    · exact hne hmut

lemma tokens_map (p : EntryPhrase) : (p.map f).tokens = p.tokens.map f := by
  rw [tokens, parts_map, tokens, List.map_map, List.map_map]
  rfl

lemma entry_map {p : EntryPhrase} (h : p.IsWellFormed host stops inGroup allowMut)
    (hf : Role.Carries host f v v' p.parts p.runs) :
    ((p.map f).entry v'.nameOf v'.text).mapPositions v'.place =
      (p.entry v.nameOf v.text).mapPositions v.place := by
  have hmodifier : (p.map f).modifier.modifier v'.text = p.modifier.modifier v.text := by
    refine ModifierPhrase.modifier_map (hf.mono ?_ (List.subset_append_left _ _))
    exact fun part hpart => by simp [parts, hpart]
  have htail : Role.Carries host f v v' p.tail.parts p.tail.runs :=
    hf.mono (fun part hpart => by simp [parts, hpart]) (List.subset_append_right _ _)
  obtain ⟨t, more, htokens, -⟩ := h.exists_tokens
  have ht : t ∈ p.parts.map Prod.snd := by
    have heq : p.parts.map Prod.snd = t :: more := htokens
    rw [heq]
    exact List.mem_cons_self
  obtain ⟨part, hpart, rfl⟩ := List.mem_map.mp ht
  have hposition : v'.place ((p.map f).tokens.headD (p.map f).name).position =
      v.place (p.tokens.headD p.name).position := by
    rw [tokens_map, htokens]
    exact hf.position part hpart
  have hname : v'.nameOf (p.map f).name = v.nameOf p.name :=
    hf.nameOf (.name, p.name) (by simp [parts]) rfl
  have hmark : (p.map f).mark.isSome = p.mark.isSome := Option.isSome_map
  refine EntryTail.complete_map h.tail ?_ htail
  rw [Entry.mapPositions, Entry.mapPositions, hposition, hmodifier, hmark, hname]
  rfl

end EntryPhrase

namespace CommaList

variable {α : Type} {g : α → α} {part : α → List (Role × Token)} {ok ok' : α → Prop}

lemma items_map (l : CommaList α) : (l.map f g).items = l.items.map g := by
  rw [items, items, List.map_append, map, List.map_map, List.map_map]
  cases l.last <;> rfl

lemma closedParts_map (hpart : ∀ a, part (g a) = (part a).map (Prod.map id f))
    (closed : List (α × Token)) : closedParts part (closed.map (Prod.map g f)) =
      (closedParts part closed).map (Prod.map id f) := by
  rw [closedParts, closedParts, List.flatMap_map, List.map_flatMap]
  refine List.flatMap_congr fun item _ => ?_
  rw [List.map_append, ← hpart]
  rfl

lemma parts_map (hpart : ∀ a, part (g a) = (part a).map (Prod.map id f)) (l : CommaList α) :
    (l.map f g).parts part = (l.parts part).map (Prod.map id f) := by
  rw [parts, parts, List.map_append, ← closedParts_map hpart, map]
  cases l.last with
  | none => rfl
  | some a => exact congrArg (closedParts _ _ ++ ·) (hpart a)

lemma isInfix_parts {l : CommaList α} {a : α} (ha : a ∈ l.items) : part a <:+: l.parts part := by
  rcases List.mem_append.mp ha with hclosed | hlast
  · obtain ⟨item, hitem, rfl⟩ := List.mem_map.mp hclosed
    obtain ⟨before, behind, hsplit⟩ := List.append_of_mem hitem
    refine ⟨closedParts part before,
      (.sign, item.2) :: (closedParts part behind ++ l.last.elim [] part), ?_⟩
    rw [parts, hsplit]
    simp [closedParts]
  · rw [parts, Option.mem_toList.mp hlast]
    exact (List.suffix_append _ _).isInfix

lemma holds {runs : α → List (List (Role × Token))} (h : ∀ a, Role.Holds (part a) (runs a))
    (l : CommaList α) : Role.Holds (l.parts part) (l.items.flatMap runs) := by
  intro run hrun
  obtain ⟨a, ha, hrun⟩ := List.mem_flatMap.mp hrun
  exact (h a).mono (isInfix_parts ha) run hrun

lemma comma_mem_parts {l : CommaList α} {item : α × Token} (hitem : item ∈ l.closed) :
    (.sign, item.2) ∈ l.parts part :=
  List.mem_append_left _ (List.mem_flatMap.mpr
    ⟨item, hitem, List.mem_append_right _ List.mem_cons_self⟩)

lemma IsWellFormed.map {l : CommaList α} (h : l.IsWellFormed ok)
    (hok : ∀ a ∈ l.items, ok a → ok' (g a))
    (hf : ∀ x ∈ l.parts part, Role.Keeps host f x) : (l.map f g).IsWellFormed ok' := by
  refine ⟨fun item hitem => ?_, fun a ha => ?_⟩
  · obtain ⟨item, hclosed, rfl⟩ := List.mem_map.mp hitem
    have hkind : (f item.2).kind = item.2.kind := (hf _ (comma_mem_parts hclosed)).kind_of_sign
    exact hkind.trans (h.comma item hclosed)
  · rw [items_map] at ha
    obtain ⟨b, hb, rfl⟩ := List.mem_map.mp ha
    exact hok b hb (h.items b hb)

end CommaList

namespace GroupPhrase

lemma parts_map (p : GroupPhrase) : (p.map f).parts = p.parts.map (Prod.map id f) := by
  have hentries := CommaList.parts_map EntryPhrase.parts_map p.entries (f := f)
  rw [parts, parts, List.map_cons, List.map_append, ← hentries, Role.map_signs]
  rfl

lemma holds (p : GroupPhrase) : Role.Holds p.parts p.runs := by
  let entries := p.entries.parts EntryPhrase.parts
  have hcons (x : Role × Token) (ts : List (Role × Token)) : ts <:+: x :: ts :=
    (List.suffix_cons _ _).isInfix
  refine ((CommaList.holds EntryPhrase.holds p.entries).mono ?_).append (.signs ?_)
  · exact (List.prefix_append _ _).isInfix.trans (hcons _ _)
  · have hsource : signs p.source <:+ signs (p.closeBrace :: p.wordIn :: p.source) :=
      (List.suffix_cons _ _).trans (List.suffix_cons _ _)
    exact (hsource.trans (List.suffix_append entries _)).isInfix.trans (hcons _ _)

lemma entry_subset {p : GroupPhrase} {e : EntryPhrase} (he : e ∈ p.entries.items) :
    e.parts ⊆ p.parts := fun _ hx =>
  List.mem_cons_of_mem _ (List.mem_append_left _ ((CommaList.isInfix_parts he).subset hx))

lemma sign_mem_parts {p : GroupPhrase} {t : Token}
    (ht : t = p.openBrace ∨ t = p.closeBrace ∨ t = p.wordIn ∨ t ∈ p.source) :
    (.sign, t) ∈ p.parts := by
  rcases ht with rfl | ht
  · exact List.mem_cons_self
  · refine List.mem_cons_of_mem _ (List.mem_append_right _ (List.mem_map_of_mem ?_))
    simpa using ht

lemma IsWellFormed.map {p : GroupPhrase} (h : p.IsWellFormed host rule)
    (hmut : rule'.allowMut = rule.allowMut) (hclose : rule'.close ≠ .greater)
    (hstops : ∀ part ∈ p.parts, part.2.kind = rule'.close → part.2.kind = rule.close)
    (hf : ∀ part ∈ p.parts, Role.Keeps host f part) : (p.map f).IsWellFormed host rule' := by
  have hsign {t : Token} (ht : (Role.sign, t) ∈ p.parts) : (f t).kind = t.kind :=
    (hf _ ht).kind_of_sign
  have hsource : (p.source.map f).map Token.kind = p.source.map Token.kind := by
    refine Role.map_kind_of_keeps fun part hpart => hf part ?_
    obtain ⟨t, ht, rfl⟩ := List.mem_map.mp hpart
    exact sign_mem_parts (by simp [ht])
  have hentries : ∀ part ∈ p.entries.parts EntryPhrase.parts, Role.Keeps host f part :=
    fun part hpart => hf part (List.mem_cons_of_mem _ (List.mem_append_left _ hpart))
  refine ⟨(hsign (sign_mem_parts (by simp))).trans h.openBrace, ?_, ?_,
    (hsign (sign_mem_parts (by simp))).trans h.closeBrace,
    (hsign (sign_mem_parts (by simp))).trans h.wordIn,
    h.source.of_kinds hsource rfl (by simp [hclose.symm]) fun t ht hstop => ?_⟩
  · refine h.entries.map (fun e he hok => ?_) hentries
    rw [hmut]
    exact hok.map (by simp) (fun _ _ hstop => hstop) fun part hpart =>
      hf part (entry_subset he hpart)
  · rw [GroupPhrase.map, CommaList.items_map]
    exact List.map_eq_nil_iff.not.mpr h.entries_ne_nil
  · have hpart : (.sign, t) ∈ p.parts := sign_mem_parts (by simp [ht])
    exact Parser.ListRule.mem_stops (hstops _ hpart) hstop

lemma group_map {p : GroupPhrase} (h : p.IsWellFormed host rule)
    (hf : Role.Carries host f v v' p.parts p.runs) :
    ((p.map f).group v'.nameOf v'.text).mapPositions v'.place =
      (p.group v.nameOf v.text).mapPositions v.place := by
  have hentries :
      ((p.map f).entries.items.map (EntryPhrase.entry v'.nameOf v'.text)).map
          (Entry.mapPositions v'.place) =
        (p.entries.items.map (EntryPhrase.entry v.nameOf v.text)).map
          (Entry.mapPositions v.place) := by
    rw [map, CommaList.items_map, List.map_map, List.map_map, List.map_map]
    refine List.map_congr_left fun e he => EntryPhrase.entry_map (h.entries.items e he) ?_
    refine hf.mono (entry_subset he) fun run hrun => ?_
    exact List.mem_append_left _ (List.mem_flatMap.mpr ⟨e, he, hrun⟩)
  have hposition {t : Token} (ht : (Role.sign, t) ∈ p.parts) :
      v'.place (f t).position = v.place t.position := hf.position _ ht
  have htext := hf.textOf (signs p.source) (List.mem_append_right _ List.mem_cons_self)
  rw [Role.map_snd_signs] at htext
  have hsource := Expression.ofTokens_map h.source.1
    (fun t ht => hposition (sign_mem_parts (by simp [ht]))) htext
  rw [group, Group.mapPositions, hentries, group, Group.mapPositions, ← hsource]
  exact congrArg (Group.mk _ _) (hposition (sign_mem_parts (by simp)))

end GroupPhrase

namespace ItemPhrase

lemma parts_map (p : ItemPhrase) : (p.map f).parts = p.parts.map (Prod.map id f) := by
  cases p with
  | entry p => exact p.parts_map
  | group p => exact p.parts_map

lemma holds (p : ItemPhrase) : Role.Holds p.parts p.runs := by
  cases p with
  | entry p => exact p.holds
  | group p => exact p.holds

lemma IsWellFormed.map {p : ItemPhrase} (h : p.IsWellFormed host rule)
    (hmut : rule'.allowMut = rule.allowMut) (hclose : rule'.close ≠ .greater)
    (hstops : ∀ part ∈ p.parts, part.2.kind = rule'.close → part.2.kind = rule.close)
    (hf : ∀ part ∈ p.parts, Role.Keeps host f part) : (p.map f).IsWellFormed host rule' := by
  cases p with
  | entry p =>
    have hentry : (p.map f).IsWellFormed host [.comma, rule'.close] false rule.allowMut :=
      EntryPhrase.IsWellFormed.map h (by simp [hclose.symm])
        (fun part hpart => Parser.ListRule.mem_stops (hstops part hpart)) hf
    rw [← hmut] at hentry
    exact hentry
  | group p => exact GroupPhrase.IsWellFormed.map h hmut hclose hstops hf

lemma item_map {p : ItemPhrase} (h : p.IsWellFormed host rule)
    (hf : Role.Carries host f v v' p.parts p.runs) :
    ((p.map f).item v'.nameOf v'.text).mapPositions v'.place =
      (p.item v.nameOf v.text).mapPositions v.place := by
  cases p with
  | entry p => exact congrArg Item.entry (EntryPhrase.entry_map h hf)
  | group p => exact congrArg Item.group (GroupPhrase.group_map h hf)

end ItemPhrase

namespace ListPhrase

lemma parts_map (p : ListPhrase) : (p.map f).parts = p.parts.map (Prod.map id f) := by
  have hitems := CommaList.parts_map ItemPhrase.parts_map p.items (f := f)
  rw [parts, parts, List.map_append, ← hitems, map]
  cases p.base with
  | none => rfl
  | some b => exact congrArg (_ ++ ·) (Role.map_signs f (b.1 :: b.2)).symm

lemma tokens_map (p : ListPhrase) : (p.map f).tokens = p.tokens.map f := by
  rw [tokens, parts_map, tokens, List.map_map, List.map_map]
  rfl

lemma holds (p : ListPhrase) : Role.Holds p.parts p.runs := by
  have hitems : Role.Holds p.parts (p.items.items.flatMap ItemPhrase.runs) :=
    (CommaList.holds ItemPhrase.holds p.items).mono (List.prefix_append _ _).isInfix
  refine hitems.append ?_
  rw [parts]
  cases p.base with
  | none => exact List.forall_mem_nil _
  | some b => exact .signs ((List.suffix_cons _ _).trans (List.suffix_append _ _)).isInfix

lemma item_subset {p : ListPhrase} {a : ItemPhrase} (ha : a ∈ p.items.items) :
    a.parts ⊆ p.parts := fun _ hx => List.mem_append_left _ ((CommaList.isInfix_parts ha).subset hx)

lemma base_mem_parts {p : ListPhrase} {b : Token × List Token} (hb : b ∈ p.base) {t : Token}
    (ht : t ∈ b.1 :: b.2) : (.sign, t) ∈ p.parts := by
  rw [parts, hb]
  exact List.mem_append_right _ (List.mem_map_of_mem ht)

lemma IsWellFormed.map {p : ListPhrase} (h : p.IsWellFormed host rule)
    (hclose : rule.close ≠ .greater) (hf : ∀ part ∈ p.parts, Role.Keeps host f part) :
    (p.map f).IsWellFormed host rule := by
  refine ⟨?_, fun b hb => ?_⟩
  · refine h.items.map (fun a ha hok => ?_) fun part hpart => hf part (List.mem_append_left _ hpart)
    exact hok.map rfl hclose (fun _ _ hstop => hstop) fun part hpart =>
      hf part (item_subset ha hpart)
  · obtain ⟨b, hbase, rfl⟩ := Option.map_eq_some_iff.mp hb
    obtain ⟨hallow, hlast, hdots, htext⟩ := h.base b hbase
    have hkinds : (b.2.map f).map Token.kind = b.2.map Token.kind := by
      refine Role.map_kind_of_keeps fun part hpart => hf part ?_
      obtain ⟨t, ht, rfl⟩ := List.mem_map.mp hpart
      exact base_mem_parts hbase (List.mem_cons_of_mem _ ht)
    have hkind : (f b.1).kind = b.1.kind :=
      (hf _ (base_mem_parts hbase List.mem_cons_self)).kind_of_sign
    refine ⟨hallow, ?_, hkind.trans hdots,
      htext.of_kinds hkinds rfl (by simp [hclose.symm]) fun _ _ hstop => hstop⟩
    rw [ListPhrase.map, CommaList.map, hlast]
    rfl

lemma composition_map {p : ListPhrase} (h : p.IsWellFormed host rule)
    (hf : Role.Carries host f v v' p.parts p.runs) :
    ((p.map f).composition v'.nameOf v'.text).mapPositions v'.place =
      (p.composition v.nameOf v.text).mapPositions v.place := by
  have hitems :
      ((p.map f).items.items.map (ItemPhrase.item v'.nameOf v'.text)).map
          (Item.mapPositions v'.place) =
        (p.items.items.map (ItemPhrase.item v.nameOf v.text)).map (Item.mapPositions v.place) := by
    rw [map, CommaList.items_map, List.map_map, List.map_map, List.map_map]
    refine List.map_congr_left fun a ha => ItemPhrase.item_map (h.items.items a ha) ?_
    refine hf.mono (item_subset ha) fun run hrun => ?_
    exact List.mem_append_left _ (List.mem_flatMap.mpr ⟨a, ha, hrun⟩)
  rw [composition, Composition.mapPositions, hitems, composition, Composition.mapPositions]
  refine congrArg (Composition.mk _) ?_
  rw [map, Option.map_map, Option.map_map, Option.map_map]
  refine Option.map_congr fun b hb => ?_
  have htext := hf.textOf (signs b.2) (List.mem_append_right _ (by simp [hb]))
  rw [Role.map_snd_signs] at htext
  exact Expression.ofTokens_map (h.base b hb).2.2.2.1
    (fun t ht => hf.position (.sign, t) (base_mem_parts hb (List.mem_cons_of_mem _ ht))) htext

end ListPhrase

namespace TextPhrase

variable {allowBase : Bool}

lemma parts_map (p : TextPhrase) : (p.map f).parts = p.parts.map (Prod.map id f) := by
  rw [parts, parts, map, p.list.parts_map]
  cases p.braces with
  | none => rfl
  | some b => simp

lemma tokens_map (p : TextPhrase) : (p.map f).tokens = p.tokens.map f := by
  rw [tokens, parts_map, tokens, List.map_map, List.map_map]
  rfl

lemma list_infix (p : TextPhrase) : p.list.parts <:+: p.parts := by
  rw [parts]
  cases p.braces with
  | none => exact List.infix_rfl
  | some b => exact ⟨[(.sign, b.1)], [(.sign, b.2)], rfl⟩

lemma rule_close_ne (p : TextPhrase) : (p.rule allowBase allowMut).close ≠ .greater := by
  rw [rule]
  split <;> simp

lemma IsWellFormed.map {p : TextPhrase} (h : p.IsWellFormed host allowBase allowMut)
    (hf : ∀ part ∈ p.parts, Role.Keeps host f part) :
    (p.map f).IsWellFormed host allowBase allowMut := by
  have hrule : (p.map f).rule allowBase allowMut = p.rule allowBase allowMut := by
    rw [rule, TextPhrase.map, Option.isSome_map, rule]
  refine ⟨fun b hb => ?_, ?_⟩
  · obtain ⟨b, hbraces, rfl⟩ := Option.map_eq_some_iff.mp hb
    have hparts : p.parts = (.sign, b.1) :: (p.list.parts ++ [(.sign, b.2)]) := by
      rw [parts, hbraces]
      rfl
    have hkind {t : Token} (ht : t = b.1 ∨ t = b.2) : (f t).kind = t.kind :=
      (hf (.sign, t) (by rw [hparts]; aesop)).kind_of_sign
    obtain ⟨hopen, hclose⟩ := h.braces b hbraces
    exact ⟨(hkind (.inl rfl)).trans hopen, (hkind (.inr rfl)).trans hclose⟩
  · rw [hrule]
    exact h.list.map p.rule_close_ne fun part hpart => hf part (p.list_infix.subset hpart)

end TextPhrase

end FieldComposition
