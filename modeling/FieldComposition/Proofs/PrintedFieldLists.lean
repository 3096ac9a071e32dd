import FieldComposition.Proofs.PrintedPhrases
import FieldComposition.Proofs.RefusedPhrases

/-!
# Printing and reading again

The entries of a field list that has been read are printed as a text that is read as the same
entries (`ofText_render_entries`). So is a group, unless an entry with a modifier or a mark is
renamed in it: that one is printed with its modifier where only the name of a source field may stand
(`ofText_render_group`).
-/

namespace FieldComposition

open Role (signs)

/-- The entry is not renamed, or it is with neither a modifier nor a mark. -/
def Entry.RenamesPlainly (e : Entry) : Prop :=
  e.rename.isSome → e.modifier = .direct ∧ e.mutable = false

instance (e : Entry) : Decidable e.RenamesPlainly :=
  inferInstanceAs (Decidable (_ → _))

variable {host : Host} {text : String} {allowBase allowBase' allowMut : Bool}

/-! ## Phrases that are printed -/

lemma ModifierPhrase.modifier_eq_direct_iff {p : ModifierPhrase} (hp : p.IsWellFormed) :
    p.modifier text = .direct ↔ p = {} := by
  constructor
  · intro h
    obtain ⟨kind, hkind⟩ := Option.isSome_iff_exists.mp hp.kind
    rw [modifier_eq hkind] at h
    obtain rfl : kind = .direct := by cases kind <;> first | rfl | cases h
    obtain ⟨path, signs⟩ := p
    rw [kind?] at hkind
    unfold Modifier.Kind.ofSigns? at hkind
    split at hkind <;> simp_all
  · rintro rfl
    rfl

lemma EntryPhrase.renamesPlainly_iff {p : EntryPhrase} {stops : List TokenKind} {inGroup : Bool}
    (hp : p.IsWellFormed host stops inGroup allowMut) (nameOf : Token → String) :
    (p.entry nameOf text).RenamesPlainly ↔ p.IsPlain := by
  rw [entry, Entry.RenamesPlainly, IsPlain]
  cases htail : p.tail with
  | nothing => simp [EntryTail.complete]
  | value => simp [EntryTail.complete]
  | source colon field =>
    simp [EntryTail.complete, ModifierPhrase.modifier_eq_direct_iff hp.modifier, and_comm]

/-- A list can do without a comma behind its last item. -/
lemma CommaList.exists_trimmed {α : Type} {l : CommaList α} (h : l.items ≠ []) :
    ∃ closed a, items ⟨closed, some a⟩ = l.items ∧ closed ⊆ l.closed ∧
      ∀ part, parts part ⟨closed, some a⟩ <+: l.parts part := by
  obtain ⟨closed, last⟩ := l
  cases last with
  | some a => exact ⟨closed, a, rfl, List.Subset.refl _, fun _ => List.prefix_refl _⟩
  | none =>
    have hne : closed ≠ [] := fun hnil => h (by rw [hnil]; rfl)
    obtain ⟨front, item, rfl⟩ : ∃ front item, closed = front ++ [item] :=
      ⟨_, _, (List.dropLast_concat_getLast hne).symm⟩
    refine ⟨front, item.1, by simp [items], List.subset_append_left _ _, fun part => ?_⟩
    exact ⟨[(.sign, item.2)], by simp [parts, closedParts]⟩

lemma GroupPhrase.exists_trimmed {p : GroupPhrase} {rule : Parser.ListRule}
    (hp : p.IsWellFormed host rule) :
    ∃ q : GroupPhrase, q.IsWellFormed host rule ∧ q.entries.last.isSome ∧
      (∀ nameOf text, q.group nameOf text = p.group nameOf text) ∧ q.runs = p.runs ∧
      q.parts.Sublist p.parts := by
  obtain ⟨closed, a, hitems, hclosed, hparts⟩ := CommaList.exists_trimmed hp.entries_ne_nil
  refine ⟨{ p with entries := ⟨closed, some a⟩ },
    { hp with entries := ⟨fun item hitem => ?_, ?_⟩, entries_ne_nil := ?_ }, rfl, ?_, ?_, ?_⟩
  · exact hp.entries.comma item (hclosed hitem)
  · rw [hitems]
    exact hp.entries.items
  · rw [hitems]
    exact hp.entries_ne_nil
  · intro nameOf text
    rw [group, hitems, group]
  · rw [runs, hitems, runs]
  · exact ((hparts EntryPhrase.parts).sublist.append_right _).cons_cons _

/-- Printed text is read as the tokens that have been printed, and phrases of these are carried
along. -/
lemma Chunk.exists_carries {chunks : List Chunk} {parts : List (Role × Token)}
    {runs : List (List (Role × Token))} {text' : String} (hfits : FitAll host text chunks none)
    (hperm : (chunks.flatMap Chunk.tokens).Perm (parts.map Prod.snd))
    (hnodup : (parts.map Prod.snd).Nodup)
    (hruns : ∀ run ∈ runs, .run (run.map Prod.snd) ∈ chunks)
    (htext : text'.toList = chunks.flatMap (chars text)) :
    ∃ f eof, Tokens.ofText host text' = .ok ⟨(chunks.flatMap Chunk.tokens).map f, eof⟩ ∧
      Role.Carries host f { text, place := fun _ => .start }
        { text := text', place := fun _ => .start } parts runs := by
  obtain ⟨f, eof, hread, hlexeme, htextOf⟩ :=
    exists_replacement hfits (hperm.nodup_iff.mpr hnodup) htext
  have hkeeps : ∀ part ∈ parts, (f part.2).lexeme = part.2.lexeme := fun part hpart =>
    hlexeme part.2 (hperm.mem_iff.mpr (List.mem_map_of_mem hpart))
  refine ⟨f, eof, hread, fun part hpart => .inl ?_, fun part hpart _ => ?_, fun _ _ => rfl,
    fun run hrun => htextOf _ (hruns run hrun)⟩
  · exact congrArg Prod.fst (hkeeps part hpart)
  · exact congrArg Prod.snd (hkeeps part hpart)

/-- The parts of a phrase stand in the text that it is read from. -/
lemma TextPhrase.standIn (p : TextPhrase) :
    Role.StandIn p.tokens p.list.parts p.list.runs where
  mem _ hpart := List.mem_map_of_mem (p.list_infix.subset hpart)
  run _ hrun := ((p.list.holds _ hrun).1.trans p.list_infix).map Prod.snd

/-- Items of a text whose renamed entries are plain are printed as a text that is read as the same
items. -/
lemma CommaList.exists_ofText_printed {l : CommaList ItemPhrase} {rule : Parser.ListRule}
    {tokens : Tokens} (htokens : Tokens.ofText host text = .ok tokens)
    (hl : l.IsWellFormed (ItemPhrase.IsWellFormed host rule)) (hmut : allowMut = rule.allowMut)
    (hlast : l.last.isSome) (htrimmed : ∀ a ∈ l.items, a.IsTrimmed)
    (hplain : ∀ a ∈ l.items, ∀ e ∈ a.entries, e.IsPlain)
    (hstand : Role.StandIn tokens.body (l.parts ItemPhrase.parts) (l.items.flatMap ItemPhrase.runs))
    (hnodup : ((l.parts ItemPhrase.parts).map Prod.snd).Nodup) :
    let items := l.items.map (ItemPhrase.item Token.value text)
    ∃ c, Composition.ofText allowBase allowMut host
        (", ".intercalate (items.map Item.render)) = .ok c ∧
      c.mapPositions (fun _ => .start) =
        ({ items } : Composition).mapPositions (fun _ => .start) := by
  intro items
  let text' := ", ".intercalate (items.map Item.render)
  have hcommas : ∀ item ∈ l.closed, item.2 ∈ tokens.body := fun item hitem =>
    hstand.mem (.sign, item.2) (comma_mem_parts hitem)
  have hitem : ∀ a ∈ l.items, Role.StandIn tokens.body a.parts a.runs := fun a ha =>
    hstand.mono (isInfix_parts ha).subset fun run hrun => List.mem_flatMap.mpr ⟨a, ha, hrun⟩
  have htext : text'.toList = (l.chunks ItemPhrase.chunks).flatMap (Chunk.chars text) := by
    rw [l.chars_chunks htokens hl hlast hcommas fun a ha =>
      a.chars_chunks htokens (hl.items a ha) (htrimmed a ha) (hitem a ha)]
    simp only [text', items, List.map_map, Function.comp_def]
  have hprinted : (l.chunks ItemPhrase.chunks).flatMap Chunk.tokens =
      (l.parts ItemPhrase.parts).map Prod.snd := by
    rw [tokens_chunks ItemPhrase.tokens_chunks,
      parts_congr fun a ha => ItemPhrase.printed_eq (hplain a ha)]
  have hfits : Chunk.FitAll host text (l.chunks ItemPhrase.chunks) none := by
    refine CommaList.fitAll htokens hl hcommas fun a ha d hd => ?_
    refine ItemPhrase.fitAll htokens (hl.items a ha) (hitem a ha) ?_
    rcases hd with rfl | rfl
    · rintro d ⟨⟩
      decide
    · exact nofun
  obtain ⟨f, eof, htokens', hcarries⟩ := Chunk.exists_carries hfits (.of_eq hprinted) hnodup
    (fun run hrun => by
      obtain ⟨a, ha, hrun⟩ := List.mem_flatMap.mp hrun
      exact mem_chunks ha (ItemPhrase.run_mem_chunks hrun)) htext
  let p : ListPhrase := ⟨l, none⟩
  have hparts : p.parts = l.parts ItemPhrase.parts := List.append_nil _
  have hp : p.IsWellFormed host rule := ⟨hl, by simp [p]⟩
  let q : TextPhrase := ⟨none, p.map f⟩
  have hitems : (l.map f (ItemPhrase.map f)).IsWellFormed (ItemPhrase.IsWellFormed host
      { close := .eof, allowBase, allowMut }) := by
    refine hl.map (fun a ha hok => ?_) hcarries.keeps
    refine ItemPhrase.IsWellFormed.map hok hmut (by simp) (fun part hpart hkind => ?_)
      fun part hpart => hcarries.keeps part ((isInfix_parts ha).subset hpart)
    exact absurd hkind (Tokens.kind_ne_eof_of_ofText htokens _ ((hitem a ha).mem part hpart))
  have hq : q.IsWellFormed host allowBase allowMut :=
    ⟨by simp [q], hitems, by simp [q, p, ListPhrase.map]⟩
  refine ⟨q.composition text', Composition.ofText_iff.mpr ⟨q, ⟨hq, eof, ?_⟩, rfl⟩, ?_⟩
  · have hbody : q.tokens = ((l.chunks ItemPhrase.chunks).flatMap Chunk.tokens).map f := by
      rw [TextPhrase.tokens_eq, Option.elim_none, ListPhrase.tokens_map, ListPhrase.tokens, hparts,
        hprinted]
    rw [hbody, htokens']
  · have hcarries' : Role.Carries host f { text, place := fun _ => .start }
        { text := text', place := fun _ => .start } p.parts p.runs := by
      rwa [hparts, ListPhrase.runs, Option.toList_none, List.map_nil, List.append_nil]
    exact ListPhrase.composition_map hp hcarries'

/-! ## Entries that stand alone -/

lemma EntryPhrase.IsWellFormed.isPlain {p : EntryPhrase} {stops : List TokenKind}
    (hp : p.IsWellFormed host stops false allowMut) : p.IsPlain := by
  intro colon field htail
  have hwf := hp.tail
  rw [htail] at hwf
  cases hwf.1

lemma Composition.exists_entry {c : Composition} (h : c.groups = []) {i : Item} (hi : i ∈ c.items) :
    ∃ e, i = .entry e := by
  cases i with
  | entry e => exact ⟨e, rfl⟩
  | group g =>
    have hg : g ∈ c.groups := List.mem_filterMap.mpr ⟨_, hi, rfl⟩
    rw [h] at hg
    cases hg

lemma Composition.map_render_entries {c : Composition} (h : c.groups = []) :
    c.entries.map Entry.render = c.items.map Item.render := by
  rw [entries, List.map_flatMap, List.map_eq_flatMap]
  refine List.flatMap_congr fun i hi => ?_
  obtain ⟨e, rfl⟩ := exists_entry h hi
  rfl

/-- The entries of a field list without groups, separated by commas, are read as they were. -/
theorem ofText_render_entries {c : Composition}
    (h : Composition.ofText allowBase allowMut host text = .ok c) (hitems : c.items ≠ [])
    (hgroups : c.groups = []) (hbase : c.base = none) :
    ∃ c', Composition.ofText allowBase' allowMut host
        (", ".intercalate (c.entries.map Entry.render)) = .ok c' ∧
      c'.mapPositions (fun _ => .start) = c.mapPositions fun _ => .start := by
  obtain ⟨p, hp, rfl⟩ := Composition.ofText_iff.mp h
  obtain ⟨eof, htokens⟩ := hp.tokens_eq_body
  have hentry : ∀ a ∈ p.list.items.items, ∃ e, a = .entry e := by
    intro a ha
    obtain ⟨e, he⟩ := Composition.exists_entry hgroups (List.mem_map_of_mem ha)
    cases a with
    | entry e => exact ⟨e, rfl⟩
    | group => cases he
  have hne : p.list.items.items ≠ [] := fun hnil => hitems (List.map_eq_nil_iff.mpr hnil)
  obtain ⟨closed, a, hlist, hclosed, hparts⟩ := CommaList.exists_trimmed hne
  let l : CommaList ItemPhrase := ⟨closed, some a⟩
  have hl : l.IsWellFormed (ItemPhrase.IsWellFormed host (p.rule allowBase allowMut)) := by
    refine ⟨fun item hitem => hp.wellFormed.list.items.comma item (hclosed hitem), ?_⟩
    rw [hlist]
    exact hp.wellFormed.list.items.items
  have htrimmed : ∀ a ∈ l.items, a.IsTrimmed := by
    intro a ha
    obtain ⟨e, rfl⟩ := hentry a (hlist ▸ ha)
    trivial
  have hplain : ∀ a ∈ l.items, ∀ e ∈ a.entries, e.IsPlain := by
    intro a ha e he
    have hwf := hl.items a ha
    obtain ⟨e', rfl⟩ := hentry a (hlist ▸ ha)
    obtain rfl := List.mem_singleton.mp he
    exact EntryPhrase.IsWellFormed.isPlain hwf
  have hbefore : l.parts ItemPhrase.parts <+: p.list.parts :=
    (hparts ItemPhrase.parts).trans (List.prefix_append _ _)
  have hstand : Role.StandIn p.tokens (l.parts ItemPhrase.parts)
      (l.items.flatMap ItemPhrase.runs) := by
    refine p.standIn.mono hbefore.subset ?_
    rw [hlist]
    exact List.subset_append_left _ _
  have hnodup : ((l.parts ItemPhrase.parts).map Prod.snd).Nodup :=
    (Tokens.nodup_of_ofText htokens).sublist
      ((hbefore.isInfix.trans p.list_infix).map Prod.snd).sublist
  have hcomposition : p.composition text =
      { items := l.items.map (ItemPhrase.item Token.value text) } := by
    rw [hlist]
    exact congrArg (Composition.mk _) hbase
  rw [Composition.map_render_entries hgroups, hcomposition]
  exact l.exists_ofText_printed htokens hl rfl rfl htrimmed hplain hstand hnodup

/-- Fields that are called `mut` and one that is marked so, a value on two lines, and a path in
front of a field. -/
theorem ofText_render_entries_mutNames :
    let python := Host.dialect .python
    let text := "mut, mut mut,\n mut &mut a: f(1,\n [2]), [b . c]&d,"
    let c : Composition := { items := [
      .entry { name := "mut" },
      .entry { name := "mut", mutable := true, position := ⟨1, 6⟩ },
      .entry {
        name := "a", modifier := .refMut, value := some ⟨"f(1,\n [2])", ⟨2, 14⟩⟩, mutable := true
        position := ⟨2, 2⟩ },
      .entry { name := "d", modifier := .customRef "b . c", position := ⟨3, 8⟩ }] }
    Composition.ofText false true python text = .ok c ∧
      ∃ c', Composition.ofText false true python
          "mut, mut mut, mut &mut a: f(1,\n [2]), [b . c]&d" = .ok c' ∧
        c'.mapPositions (fun _ => .start) = c.mapPositions fun _ => .start := by
  intro python text c
  have h : Composition.ofText false true python text = .ok c := by decide +kernel
  have hrender : ", ".intercalate (c.entries.map Entry.render) =
      "mut, mut mut, mut &mut a: f(1,\n [2]), [b . c]&d" := by decide +kernel
  rw [← hrender]
  exact ⟨h, ofText_render_entries h (by decide) rfl rfl⟩

/-! ## Groups -/

namespace Parser

variable {src : Source}

lemma run_sourceField_of_not_plain {stops : List TokenKind} {t : Token} {ts : List Token}
    (h : src.host.isName t.kind → (ts.headD src.eof).kind ∉ stops) :
    (sourceField stops).run src (t :: ts) = .error (.fault .renameNotPlain t.position) := by
  have hplain : ¬((src.host.isName t.kind && stops.contains (ts.headD src.eof).kind) = true) := by
    rw [Bool.and_eq_true, List.contains_iff_mem]
    exact fun hplain => h hplain.1 hplain.2
  rw [sourceField, run_current_bind, run_following_bind, run_isName_bind, List.headD_cons,
    List.tail_cons, if_neg hplain]
  rfl

/-- Where only the name of a source field may stand, a mark or a modifier is found instead. -/
lemma refuses_sourceField {p : EntryPhrase} {stops : List TokenKind} {field : Token}
    (hp : p.IsWellFormed src.host stops true allowMut) (hfield : src.host.isName field.kind)
    (hplain : ¬(p.mark = none ∧ p.modifier = {})) :
    ∃ position, Refuses src (sourceField [.comma, .closeBrace])
      (p.mark.toList ++ (p.modifier.parts.map Prod.snd ++ [field]))
      (.fault .renameNotPlain position) := by
  have hsigns : ∀ kind ∈ [TokenKind.plus, .greater, .amp, .openBracket],
      kind ∉ [TokenKind.comma, .closeBrace] := by decide
  have hnames : ∀ kind ∈ TokenKind.entryStarts, kind ∉ [TokenKind.comma, .closeBrace] := by decide
  have hmodifier := hp.modifier.start
  cases hmark : p.mark with
  | none =>
    obtain ⟨t, more, hparts, hkind⟩ :=
      hmodifier.resolve_left fun hempty => hplain ⟨hmark, hempty⟩
    refine ⟨t.position, fun rest => ?_⟩
    rw [hparts]
    refine run_sourceField_of_not_plain fun hname => ?_
    obtain ⟨hamp, hplus, hgreater, hopen, -⟩ := Host.kind_of_isName hname
    simp [hamp, hplus, hgreater, hopen] at hkind
  | some t =>
    refine ⟨t.position, fun rest => run_sourceField_of_not_plain fun _ => ?_⟩
    rcases hmodifier with hempty | ⟨u, more, hparts, hkind⟩
    · rw [hempty]
      exact hnames _ (Host.mem_entryStarts_of_isName hfield)
    · rw [hparts]
      exact hsigns _ hkind

/-- A renamed entry with a mark or a modifier cannot be read as it is printed. -/
lemma refuses_entry_of_not_isPlain {p : EntryPhrase}
    (hp : p.IsWellFormed src.host [.comma, .closeBrace] true allowMut) (hplain : ¬p.IsPlain) :
    ∃ position, Refuses src (entry [.comma, .closeBrace] true allowMut)
      (p.printed.map Prod.snd) (.fault .renameNotPlain position) := by
  obtain ⟨colon, field, htail, hfront⟩ :
      ∃ colon field, p.tail = .source colon field ∧ ¬(p.mark = none ∧ p.modifier = {}) := by
    simpa [EntryPhrase.IsPlain] using hplain
  have hwf := hp.tail
  rw [htail] at hwf
  obtain ⟨-, hcolon, hfield⟩ := hwf
  obtain ⟨position, hsource⟩ := refuses_sourceField hp hfield hfront
  refine ⟨position, fun rest => ?_⟩
  let behind := p.mark.toList ++ (p.modifier.parts.map Prod.snd ++ [field]) ++ rest
  have htokens : p.printed.map Prod.snd ++ rest = p.name :: colon :: behind := by
    rw [EntryPhrase.printed, htail]
    simp [behind]
  have hmark : (mutMark [.comma, .closeBrace]).run src (p.name :: colon :: behind) =
      .ok (none, p.name :: colon :: behind) := by
    refine run_mutMark_none fun hkind => ⟨?_, ?_⟩
    · have hname : p.name.kind = .wordMut := hkind
      exact hname ▸ hp.name
    · exact List.mem_cons.mpr (.inl hcolon)
  have hmodifier : modifier.run src (p.name :: colon :: behind) =
      .ok (.direct, p.name :: colon :: behind) := by
    have hempty : ModifierPhrase.IsWellFormed {} := ⟨by simp, rfl⟩
    exact run_modifier_of_isWellFormed hempty hp.name (by simp)
  rw [htokens, run_entry, hmark]
  dsimp only
  rw [if_neg (by simp), markedEntry, run_bind, hmodifier]
  dsimp only
  rw [run_bind, run_nameAfter hp.name]
  dsimp only
  rw [entryTail, run_bind, run_accepts, List.headD_cons, if_pos hcolon]
  dsimp only
  rw [if_pos rfl, if_pos rfl, run_bind, List.drop_succ_cons, List.drop_zero, hsource rest]

lemma startsEntry_printed {p : EntryPhrase} {stops : List TokenKind} {inGroup : Bool}
    (hp : p.IsWellFormed host stops inGroup allowMut) : StartsEntry (p.printed.map Prod.snd) := by
  rw [EntryPhrase.printed]
  split
  · exact ⟨p.name, _, rfl, Host.mem_entryStarts_of_isName hp.name⟩
  · exact hp.exists_tokens

lemma refuses_group_of_not_isPlain {p : GroupPhrase} {rule : ListRule}
    (heof : src.eof.kind = .eof) (hp : p.IsWellFormed src.host rule)
    (hplain : ∃ e ∈ p.entries.items, ¬e.IsPlain) :
    ∃ position, Refuses src (group rule) (p.printed.map Prod.snd)
      (.fault .renameNotPlain position) := by
  obtain ⟨closed, e, he, hfirst, hclosed, hparts⟩ := CommaList.exists_first hplain
  obtain ⟨behind, hsplit⟩ := hparts EntryPhrase.printed
  have hok : ∀ item ∈ closed, item ∈ p.entries.closed ∧ item.1.IsPlain := fun item hitem =>
    ⟨(hclosed item hitem).1, not_not.mp (hclosed item hitem).2⟩
  have hplainClosed : CommaList.closedParts EntryPhrase.printed closed =
      CommaList.closedParts EntryPhrase.parts closed :=
    List.flatMap_congr fun item hitem => by rw [EntryPhrase.printed_eq (hok item hitem).2]
  have hwf := hp.entries.items e he
  obtain ⟨position, hentry⟩ := refuses_entry_of_not_isPlain hwf hfirst
  have hgroup : Refuses src (group rule)
      (p.openBrace :: ((CommaList.closedParts EntryPhrase.parts closed).map Prod.snd ++
        e.printed.map Prod.snd)) (.fault .renameNotPlain position) :=
    refuses_group heof (fun item hitem => hp.entries.comma item (hok item hitem).1)
      (fun item hitem => hp.entries.items item.1
        (List.mem_append_left _ (List.mem_map_of_mem (hok item hitem).1)))
      (startsEntry_printed hwf) hentry
  refine ⟨position, ?_⟩
  have htokens : p.printed.map Prod.snd =
      (p.openBrace :: ((CommaList.closedParts EntryPhrase.parts closed).map Prod.snd ++
        e.printed.map Prod.snd)) ++
      (behind.map Prod.snd ++ p.closeBrace :: p.wordIn :: p.source) := by
    rw [GroupPhrase.printed, hsplit, hplainClosed]
    simp
  rw [htokens]
  exact hgroup.append _

end Parser

lemma EntryPhrase.IsWellFormed.enclosed_printed {p : EntryPhrase} {stops : List TokenKind}
    {inGroup : Bool} (hp : p.IsWellFormed host stops inGroup allowMut) :
    Role.Enclosed p.printed := by
  have hplain {t : Token} (h : host.isName t.kind) : Role.Enclosed [(.name, t)] :=
    .single _ rfl (Host.plain_of_isName h)
  rw [printed]
  split
  · rename_i colon field htail
    have hwf := hp.tail
    rw [htail] at hwf
    have hmark : Role.Enclosed (signs p.mark.toList) := by
      cases hmark : p.mark with
      | none => exact .nil
      | some t => exact .single _ (hp.mark t hmark).1 (by decide)
    exact (hplain hp.name).append (.append (.single _ hwf.2.1 (by decide))
      (hmark.append (hp.modifier.enclosed.append (hplain hwf.2.2))))
  · exact hp.enclosed

namespace GroupPhrase

variable {p : GroupPhrase} {rule : Parser.ListRule}

lemma isBracePair_printed (hp : p.IsWellFormed host rule) :
    Token.isBracePair (p.printed.map Prod.snd) = false := by
  have hentries := hp.entries.enclosed fun _ he => EntryPhrase.IsWellFormed.enclosed_printed he
  have htokens : p.printed.map Prod.snd = p.openBrace ::
      ((p.entries.parts EntryPhrase.printed).map Prod.snd ++
        p.closeBrace :: p.wordIn :: p.source) := by
    simp [printed]
  rw [htokens]
  refine Token.isBracePair_eq_false (by rw [hp.closeBrace]; rfl) ?_
  rw [List.map_map]
  exact hentries

/-- A group whose renamed entries are plain is printed as a text that is read as the same group. -/
lemma exists_ofText_render {tokens : Tokens} (htokens : Tokens.ofText host text = .ok tokens)
    (hp : p.IsWellFormed host rule) (hmut : allowMut = rule.allowMut)
    (hlast : p.entries.last.isSome) (hplain : ∀ e ∈ p.entries.items, e.IsPlain)
    (hstand : Role.StandIn tokens.body p.parts p.runs) (hnodup : p.tokens.Nodup) :
    let g := p.group Token.value text
    ∃ c, Composition.ofText allowBase allowMut host g.render = .ok c ∧
      c.mapPositions (fun _ => .start) =
        ({ items := [.group g] } : Composition).mapPositions (fun _ => .start) := by
  intro g
  let l : CommaList ItemPhrase := ⟨[], some (.group p)⟩
  have hitem : ∀ a ∈ l.items, a = .group p := by simp [l, CommaList.items]
  have hl : l.IsWellFormed (ItemPhrase.IsWellFormed host rule) := by
    refine ⟨by simp [l], fun a ha => ?_⟩
    rw [hitem a ha]
    exact hp
  have htrimmed : ∀ a ∈ l.items, a.IsTrimmed := by
    intro a ha
    rw [hitem a ha]
    exact hlast
  have hentries : ∀ a ∈ l.items, ∀ e ∈ a.entries, e.IsPlain := by
    intro a ha
    rw [hitem a ha]
    exact hplain
  have hstand' : Role.StandIn tokens.body (l.parts ItemPhrase.parts)
      (l.items.flatMap ItemPhrase.runs) := by
    refine hstand.mono (List.Subset.refl _) ?_
    simp [l, CommaList.items, ItemPhrase.runs]
  have hprinted : ∃ c, Composition.ofText allowBase allowMut host
      (", ".intercalate [g.render]) = .ok c ∧ c.mapPositions (fun _ => .start) =
        ({ items := [.group g] } : Composition).mapPositions (fun _ => .start) :=
    l.exists_ofText_printed htokens hl hmut rfl htrimmed hentries hstand' hnodup
  rwa [String.intercalate_singleton] at hprinted

/-- A group with a renamed entry that is not plain is refused as it is printed. -/
lemma exists_error_of_render {tokens : Tokens} (htokens : Tokens.ofText host text = .ok tokens)
    (hp : p.IsWellFormed host rule) (hmut : allowMut = rule.allowMut)
    (hlast : p.entries.last.isSome) (hplain : ∃ e ∈ p.entries.items, ¬e.IsPlain)
    (hstand : Role.StandIn tokens.body p.parts p.runs) (hnodup : p.tokens.Nodup) :
    ∃ position, Composition.ofText allowBase allowMut host (p.group Token.value text).render =
      .error (.fault .renameNotPlain position) := by
  let rule' : Parser.ListRule := { close := .eof, allowBase, allowMut }
  have hfits : Chunk.FitAll host text p.chunks none := p.fitAll htokens hp hstand (by simp)
  have hperm : (p.chunks.flatMap Chunk.tokens).Perm p.tokens := by
    rw [p.tokens_chunks]
    exact p.printed_perm.map _
  have htext := (p.chars_chunks htokens hp hlast hstand).symm
  obtain ⟨f, eof, htokens', hcarries⟩ :=
    Chunk.exists_carries hfits hperm hnodup (fun _ hrun => run_mem_chunks hrun) htext
  have hq : (p.map f).IsWellFormed host rule' := by
    refine hp.map hmut (by simp [rule']) (fun part hpart hkind => ?_) hcarries.keeps
    exact absurd hkind (Tokens.kind_ne_eof_of_ofText htokens _ (hstand.mem part hpart))
  have hbody : (p.chunks.flatMap Chunk.tokens).map f = (p.map f).printed.map Prod.snd := by
    rw [p.tokens_chunks, printed_map, List.map_map, List.map_map]
    rfl
  rw [hbody] at htokens'
  have hplain' : ∃ e ∈ (p.map f).entries.items, ¬e.IsPlain := by
    obtain ⟨e, he, hne⟩ := hplain
    refine ⟨e.map f, ?_, fun h => hne (EntryPhrase.isPlain_of_map h)⟩
    rw [map, CommaList.items_map]
    exact List.mem_map_of_mem he
  let src : Source := ⟨host, (p.group Token.value text).render, eof⟩
  have heof : src.eof.kind = .eof := Tokens.kind_eof_of_ofText htokens'
  have hq' : (p.map f).IsWellFormed src.host rule' := hq
  obtain ⟨position, hrefuses⟩ := Parser.refuses_group_of_not_isPlain heof hq' hplain'
  have hstart : ∃ t more, (p.map f).printed.map Prod.snd = t :: more ∧
      t.kind ∈ TokenKind.openBrace :: TokenKind.entryStarts :=
    ⟨_, _, rfl, by rw [hq.openBrace]; exact List.mem_cons_self⟩
  have hlist : Parser.Refuses src (Parser.fieldList rule')
      (((CommaList.closedParts ItemPhrase.parts []).map Prod.snd) ++
        (p.map f).printed.map Prod.snd) (.fault .renameNotPlain position) :=
    Parser.refuses_fieldList (.inr rfl) heof (by simp) (by simp) hstart
      (Parser.refuses_item_of_group hq.openBrace hrefuses)
  exact ⟨position,
    Composition.ofText_of_refuses none htokens' (isBracePair_printed hq) hlist⟩

end GroupPhrase

/-- A group is read as it was from what is printed for it if no renamed entry in it has a modifier
or a mark. Otherwise what is printed is refused. -/
theorem ofText_render_group {c : Composition} {g : Group}
    (h : Composition.ofText allowBase allowMut host text = .ok c) (hg : g ∈ c.groups) :
    if ∀ e ∈ g.entries, e.RenamesPlainly then
      ∃ c', Composition.ofText allowBase' allowMut host g.render = .ok c' ∧
        c'.mapPositions (fun _ => .start) =
          ({ items := [.group g] } : Composition).mapPositions fun _ => .start
    else ∃ position, Composition.ofText allowBase' allowMut host g.render =
      .error (.fault .renameNotPlain position) := by
  obtain ⟨p, hp, rfl⟩ := Composition.ofText_iff.mp h
  obtain ⟨eof, htokens⟩ := hp.tokens_eq_body
  obtain ⟨item, hitem, hgroup⟩ := List.mem_filterMap.mp hg
  obtain ⟨a, ha, rfl⟩ := List.mem_map.mp hitem
  cases a with
  | entry => cases hgroup
  | group q =>
    obtain rfl := Option.some.inj hgroup
    obtain ⟨r, hr, hlast, hsame, hruns, hparts⟩ :=
      GroupPhrase.exists_trimmed (hp.wellFormed.list.items.items _ ha)
    have hitems : (ItemPhrase.group q).parts <:+: p.list.items.parts ItemPhrase.parts :=
      CommaList.isInfix_parts ha
    have hgroupParts : q.parts <:+: p.list.parts := hitems.trans (List.prefix_append _ _).isInfix
    have hstand : Role.StandIn p.tokens r.parts r.runs := by
      refine p.standIn.mono (fun _ hpart => hgroupParts.subset (hparts.subset hpart)) ?_
      rw [hruns]
      exact fun run hrun => List.mem_append_left _ (List.mem_flatMap.mpr ⟨_, ha, hrun⟩)
    have hnodup : r.tokens.Nodup := (Tokens.nodup_of_ofText htokens).sublist
      ((hparts.trans (hgroupParts.trans p.list_infix).sublist).map Prod.snd)
    have hplain : (∀ e ∈ (q.group Token.value text).entries, e.RenamesPlainly) ↔
        ∀ e ∈ r.entries.items, e.IsPlain := by
      rw [← hsame, GroupPhrase.group, List.forall_mem_map]
      exact forall₂_congr fun e he =>
        EntryPhrase.renamesPlainly_iff (hr.entries.items e he) Token.value
    rw [← hsame] at hplain ⊢
    split
    · rename_i hall
      exact r.exists_ofText_render htokens hr rfl hlast (hplain.mp hall) hstand hnodup
    · rename_i hall
      have hentry : ∃ e ∈ r.entries.items, ¬e.IsPlain := by
        simpa using hplain.not.mp hall
      exact r.exists_error_of_render htokens hr rfl hlast hentry hstand hnodup

/-- A borrowed field, a renamed one with a comma behind it, and a source that is a call. -/
theorem ofText_render_group_renamed :
    let rust := Host.dialect .rust
    let text := "\x7b&x, total: amount,\x7d in order.lines(0)"
    let g : Group := {
      entries := [
        { name := "x", modifier := .ref, position := ⟨1, 2⟩ },
        { name := "amount", rename := some "total", position := ⟨1, 6⟩ }]
      source := ⟨"order.lines(0)", ⟨1, 25⟩⟩ }
    Composition.ofText false false rust text = .ok { items := [.group g] } ∧
      ∃ c', Composition.ofText true false rust
          "\x7b &x, total: amount \x7d in order.lines(0)" = .ok c' ∧
        c'.mapPositions (fun _ => .start) =
          ({ items := [.group g] } : Composition).mapPositions fun _ => .start := by
  intro rust text g
  have h : Composition.ofText false false rust text = .ok { items := [.group g] } := by
    decide +kernel
  have hplain : ∀ e ∈ g.entries, e.RenamesPlainly := by decide
  have hrender : g.render = "\x7b &x, total: amount \x7d in order.lines(0)" := by decide +kernel
  have hgroup : if ∀ e ∈ g.entries, e.RenamesPlainly then
      ∃ c', Composition.ofText true false rust g.render = .ok c' ∧ _ = _ else _ :=
    ofText_render_group h List.mem_cons_self
  rw [if_pos hplain, hrender] at hgroup
  exact ⟨h, hgroup⟩

/-- A renamed field that is cloned is printed as `total: +amount`, which cannot be read. -/
theorem ofText_render_group_renamedClone :
    let python := Host.dialect .python
    let g : Group := {
      entries := [
        { name := "amount", modifier := .clone, rename := some "total", position := ⟨1, 3⟩ }]
      source := ⟨"order", ⟨1, 23⟩⟩ }
    Composition.ofText false false python "\x7b +total: amount \x7d in order" =
        .ok { items := [.group g] } ∧
      g.render = "\x7b total: +amount \x7d in order" ∧
      ¬∃ c', Composition.ofText false false python g.render = .ok c' := by
  intro python g
  have hrefused : Composition.ofText false false python g.render =
      .error (.fault .renameNotPlain ⟨1, 10⟩) := by decide +kernel
  refine ⟨by decide +kernel, by decide +kernel, ?_⟩
  rintro ⟨c', h⟩
  rw [hrefused] at h
  cases h

end FieldComposition
