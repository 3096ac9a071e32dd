import FieldComposition.Proofs.InvocationReading

/-!
# Invocations are well formed

`Parser.Returns` says what holds of the value of a parser that succeeds; where its tokens stand in
the text is known from `Parser.Ensures`. What every entry point accepts is well formed
(`Invocation.isWellFormed_of_ofText`): names are identifiers, expressions end in no blank, and
renames, values, bases, marks and defaults stand only where the entry point allows them.
-/

namespace FieldComposition

lemma Token.IsBehind.isIdentifier_value {text : List Char} {k : Nat} {t : Token}
    (h : t.IsBehind text k) (hkind : t.kind = .ident ∨ t.kind.isSoftKeyword) :
    Text.isIdentifier t.value.toList := by
  have hne : t.kind ≠ .eof := by
    rintro heof
    simp [heof, TokenKind.isSoftKeyword] at hkind
  rw [h.spans.value_eq, String.toList_ofList]
  exact (h.spells hne).isIdentifier hkind

/-- A custom modifier has a path that is not empty, and no other modifier has one. -/
structure Modifier.HasOwnPath (m : Modifier) : Prop where
  isSome_path_iff : m.path?.isSome ↔ m.kind ∈ [Kind.custom, Kind.customRef, Kind.customRefMut]
  path_ne_empty : m.path? ≠ some ""

lemma Modifier.IsValid.hasOwnPath {m : Modifier} (h : m.IsValid) : m.HasOwnPath := by
  refine ⟨?_, (isValid_iff m).mp h⟩
  cases m <;> simp [path?, kind]

/-- The text of an expression is not empty, and it ends in no blank. -/
def Expression.IsWellFormed (e : Expression) : Prop :=
  Text.EndsInInk e.text.toList

/-- An entry that may be renamed when it stands in a group, and have a value when it does not. -/
structure Entry.IsWellFormed (inGroup mayBeMutable : Bool) (e : Entry) : Prop where
  isIdentifier_name : Text.isIdentifier e.name.toList
  isIdentifier_rename : ∀ rename ∈ e.rename, Text.isIdentifier rename.toList
  inGroup_of_rename : e.rename.isSome → inGroup = true
  direct_of_value : e.value.isSome → inGroup = false
  isWellFormed_value : ∀ value ∈ e.value, value.IsWellFormed
  mayBeMutable_of_mutable : e.mutable → mayBeMutable = true
  hasOwnPath_modifier : e.modifier.HasOwnPath

structure Group.IsWellFormed (mayBeMutable : Bool) (g : Group) : Prop where
  entries_ne_nil : g.entries ≠ []
  isWellFormed_source : g.source.IsWellFormed
  isWellFormed_entries : ∀ e ∈ g.entries, e.IsWellFormed true mayBeMutable

def Item.IsWellFormed (mayBeMutable : Bool) : Item → Prop
  | entry e => e.IsWellFormed false mayBeMutable
  | group g => g.IsWellFormed mayBeMutable

structure Composition.IsWellFormed (mayHaveBase mayBeMutable : Bool) (c : Composition) : Prop where
  mayHaveBase_of_base : c.base.isSome → mayHaveBase = true
  isWellFormed_base : ∀ base ∈ c.base, base.IsWellFormed
  isWellFormed_items : ∀ i ∈ c.items, i.IsWellFormed mayBeMutable

lemma Composition.IsWellFormed.entries_ne_nil {mayHaveBase mayBeMutable : Bool} {c : Composition}
    (h : c.IsWellFormed mayHaveBase mayBeMutable) (hitems : c.items ≠ []) : c.entries ≠ [] := by
  obtain ⟨i, items, hc⟩ := List.exists_cons_of_ne_nil hitems
  have hi := h.isWellFormed_items i (by simp [hc])
  rw [entries, hc, List.flatMap_cons]
  cases i with
  | entry e => simp [Item.entries]
  | group g => simp [Item.entries, hi.entries_ne_nil]

lemma Composition.IsWellFormed.base_eq_none {mayBeMutable : Bool} {c : Composition}
    (h : c.IsWellFormed false mayBeMutable) : c.base = none := by
  by_contra hbase
  exact absurd (h.mayHaveBase_of_base (Option.isSome_iff_ne_none.mpr hbase)) (by simp)

lemma Composition.IsWellFormed.entries {mayHaveBase mayBeMutable : Bool} {c : Composition}
    (h : c.IsWellFormed mayHaveBase mayBeMutable) :
    ∀ e ∈ c.entries, ∃ inGroup, e.IsWellFormed inGroup mayBeMutable := by
  intro e he
  obtain ⟨i, hi, he⟩ := List.mem_flatMap.mp he
  have hi := h.isWellFormed_items i hi
  cases i with
  | entry e' =>
    obtain rfl : e = e' := by simpa [Item.entries] using he
    exact ⟨false, hi⟩
  | group g => exact ⟨true, hi.isWellFormed_entries e he⟩

lemma Entry.IsWellFormed.isIdentifier_target {inGroup mayBeMutable : Bool} {e : Entry}
    (h : e.IsWellFormed inGroup mayBeMutable) : Text.isIdentifier e.target.toList := by
  unfold target
  cases hrename : e.rename with
  | none => exact h.isIdentifier_name
  | some rename =>
    dsimp only
    split
    · exact h.isIdentifier_name
    · exact h.isIdentifier_rename rename hrename

/-- The field list of a rebinding: bare names only. -/
structure Composition.IsBare (c : Composition) : Prop where
  items_ne_nil : c.items ≠ []
  groups_eq_nil : c.groups = []
  value_eq_none : ∀ e ∈ c.entries, e.value = none

lemma Composition.entries_map_entry (entries : List Entry) :
    (⟨entries.map Item.entry, none⟩ : Composition).entries = entries := by
  simp [Composition.entries, List.flatMap_map, Item.entries]

lemma Composition.isWellFormed_of_bare {entries : List Entry} (hne : entries ≠ [])
    (h : ∀ e ∈ entries, e.IsWellFormed false true ∧ e.value = none) :
    (⟨entries.map Item.entry, none⟩ : Composition).IsWellFormed false true ∧
      (⟨entries.map Item.entry, none⟩ : Composition).IsBare := by
  refine ⟨⟨by simp, by simp, fun i hi => ?_⟩, by simpa using hne, ?_, fun e he => ?_⟩
  · obtain ⟨e, he, rfl⟩ := List.mem_map.mp hi
    exact (h e he).1
  · simp [groups, List.filterMap_map, Item.group?, Function.comp_def]
  · rw [entries_map_entry] at he
    exact (h e he).2

structure Argument.IsWellFormed (a : Argument) : Prop where
  isIdentifier_name : Text.isIdentifier a.name.toList
  name_ne_self : a.name ≠ "self"
  isWellFormed_default : ∀ default ∈ a.default, default.IsWellFormed
  hasOwnPath_modifier : a.modifier.HasOwnPath

structure Holder.IsWellFormed (h : Holder) : Prop where
  isIdentifier_name : Text.isIdentifier h.name.toList
  receiver : ∀ m ∈ h.receiver, m = .direct ∨ m = .ref ∨ m = .refMut
  isWellFormed_args : ∀ a ∈ h.args, a.IsWellFormed
  defaults : (∀ a ∈ h.args, a.default.isSome) ∨ ∀ a ∈ h.args, a.default = none

/-- An assertion compares with a value in listed fields, or with the targets of a record. -/
structure Assertion.IsWellFormed (a : Assertion) : Prop where
  isWellFormed_actual : a.actual.IsWellFormed
  isWellFormed_formatArgs : ∀ arg ∈ a.formatArgs, arg.IsWellFormed
  fields_ne_nil : a.fields ≠ []
  isIdentifier_fields : ∀ field ∈ a.fields, Text.isIdentifier field.toList
  expected : match a.expected with
    | .value value fields => value.IsWellFormed ∧ a.fields = fields ∧ fields.Nodup
    | .record c => a.fields = c.entries.map Entry.target ∧ c.IsWellFormed false false

/-- What every entry point accepts. -/
def Invocation.IsWellFormed : EntryPoint → Invocation → Prop
  | .spread, .structUpdate typePath c => typePath.IsWellFormed ∧ c.IsWellFormed true false
  | .anon, .anonRecord c => c.IsWellFormed false false ∧ c.items ≠ []
  | .slet, .rebinding c => c.IsWellFormed false true ∧ c.IsBare
  | .clone, .rebinding c =>
    c.IsWellFormed false true ∧ c.IsBare ∧ ∀ e ∈ c.entries, e.modifier = .clone
  | .fnStruct, .holder h => h.IsWellFormed
  | .assertFieldsEq, .assertion a => a.IsWellFormed
  | _, _ => False

namespace Invocation.IsWellFormed

variable {entryPoint : EntryPoint} {c : Composition}

lemma of_structUpdate {typePath : Expression}
    (h : (structUpdate typePath c).IsWellFormed entryPoint) : c.IsWellFormed true false := by
  cases entryPoint with
  | spread => exact h.2
  | _ => exact h.elim

lemma of_anonRecord (h : (anonRecord c).IsWellFormed entryPoint) :
    c.IsWellFormed false false := by
  cases entryPoint with
  | anon => exact h.1
  | _ => exact h.elim

lemma of_rebinding (h : (rebinding c).IsWellFormed entryPoint) :
    c.IsWellFormed false true ∧ c.IsBare := by
  cases entryPoint with
  | slet => exact h
  | clone => exact ⟨h.1, h.2.1⟩
  | _ => exact h.elim

lemma of_holder {holder : Holder} (h : (Invocation.holder holder).IsWellFormed entryPoint) :
    holder.IsWellFormed := by
  cases entryPoint with
  | fnStruct => exact h
  | _ => exact h.elim

lemma of_assertion {a : Assertion} (h : (assertion a).IsWellFormed entryPoint) :
    a.IsWellFormed := by
  cases entryPoint with
  | assertFieldsEq => exact h
  | _ => exact h.elim

end Invocation.IsWellFormed

namespace Parser

variable {α β : Type} {host : Host} {text : String} {k : Nat} {p q : Parser α} {P : α → Prop}
  {Q : β → Prop}

/-- A parser that succeeds on tokens of a text returns a value of which `P` holds. -/
def Returns (host : Host) (text : String) (k : Nat) (p : Parser α) (P : α → Prop) : Prop :=
  ∀ tokens, Ahead text.toList k tokens →
    ∀ a rest, p.run (.ofText host text) tokens = .ok (a, rest) → P a

lemma Ensures.and {P' : α → Prop} (hp : Ensures host text k p P) (hp' : Returns host text k p P') :
    Ensures host text k p fun a => P a ∧ P' a := by
  intro tokens htokens
  have hp := hp tokens htokens
  cases hresult : p.run (.ofText host text) tokens with
  | error error =>
    rw [hresult] at hp
    exact hp
  | ok result =>
    rw [hresult] at hp
    exact ⟨⟨hp.1, hp' tokens htokens _ _ hresult⟩, hp.2⟩

/-- Items keep what each of them returns as long as they keep `P`. -/
lemma Ensures.separated_and {σ : Type} {P R : σ → Prop} {close : TokenKind}
    {stops : TokenKind → Bool} {sought : Sought} {item : σ → Parser σ} {s : σ}
    (hitem : ∀ s, P s → Ensures host text k (item s) P)
    (hreturns : ∀ s, R s → Returns host text k (item s) R) (hP : P s) (hR : R s) :
    Ensures host text k (Parser.separated close stops sought item s) fun s => P s ∧ R s :=
  separated (fun s hs => (hitem s hs.1).and (hreturns s hs.2)) ⟨hP, hR⟩

lemma Ensures.returns (hp : Ensures host text k p P) : Returns host text k p P := by
  intro tokens htokens a rest hrun
  have hp := hp tokens htokens
  rw [hrun] at hp
  exact hp.1

namespace Returns

lemma pure {a : α} (h : P a) : Returns host text k (pure a) P := by
  intro tokens _ b rest hrun
  obtain ⟨rfl, -⟩ := Prod.mk.inj (Except.ok.inj hrun)
  exact h

/-- The first step leaves tokens of the text, for which the second one is known to return. -/
lemma bind {f : α → Parser β} (hp : Ensures host text k p P)
    (hf : ∀ a, P a → Returns host text k (f a) Q) : Returns host text k (p >>= f) Q := by
  intro tokens htokens b rest hrun
  have hp := hp tokens htokens
  rw [run_bind] at hrun
  cases hresult : p.run (.ofText host text) tokens with
  | error error =>
    rw [hresult] at hrun
    exact absurd hrun (by simp)
  | ok result =>
    rw [hresult] at hp hrun
    exact hf result.1 hp.1 result.2 hp.2 b rest hrun

lemma mono {Q : α → Prop} (hp : Returns host text k p P) (h : ∀ a, P a → Q a) :
    Returns host text k p Q :=
  fun tokens htokens a rest hrun => h a (hp tokens htokens a rest hrun)

lemma ite {c : Prop} [Decidable c] (hp : c → Returns host text k p P)
    (hq : ¬c → Returns host text k q P) : Returns host text k (if c then p else q) P := by
  by_cases hc : c
  · rw [if_pos hc]
    exact hp hc
  · rw [if_neg hc]
    exact hq hc

lemma failAt {fault : SyntaxFault} {position : Position} :
    Returns host text k (failAt fault position) P :=
  fun _ _ _ _ hrun => by cases hrun

lemma failAt_bind {fault : SyntaxFault} {position : Position} {f : α → Parser β} :
    Returns host text k (Parser.failAt fault position >>= f) Q :=
  fun _ _ _ _ hrun => by cases hrun

/-- The last token of a capture is a token of the text, by induction on the tokens. -/
lemma captureFrom_last {text : List Char} {rule : CaptureRule} {first : Token}
    {closers : List TokenKind} {last? : Option Token} {tokens : List Token}
    {result : Option Token × List Token} (htokens : Ahead text k tokens)
    (hlast : ∀ t ∈ last?, t.IsBehind text k ∧ t.kind ≠ .eof)
    (h : captureFrom rule first closers last? tokens = .ok result) :
    ∀ t ∈ result.1, t.IsBehind text k ∧ t.kind ≠ .eof := by
  have hread {t : Token} {rest : List Token} (h : Ahead text k (t :: rest)) :
      ∀ u ∈ some t, u.IsBehind text k ∧ u.kind ≠ .eof := by
    cases h with
    | cons ht hkind => simpa using ⟨ht, hkind⟩
  fun_induction captureFrom rule first closers last? tokens with
  | case1 | case3 =>
    obtain rfl := Except.ok.inj h
    exact hlast
  | case2 | case5 | case7 => exact absurd h (by simp)
  | case11 last? t rest _ _ outer _ hkind =>
    obtain rfl := Except.ok.inj h
    simpa [Token.halves] using (htokens.head.halves hkind).1
  | case12 last? t rest _ _ outer _ hkind _ _ _ ih =>
    have hhalf := (htokens.head.halves hkind).2
    exact ih htokens.tail (by simpa [Token.halves] using hhalf) h
  | _ =>
    rename_i ih
    exact ih htokens.tail (hread htokens) h

/-- A captured text ends with its last token. -/
lemma capture {rule : CaptureRule} :
    Returns host text k (capture rule) Expression.IsWellFormed := by
  intro tokens htokens e rest hrun
  rw [run_capture, Source.eof_ofText] at hrun
  let first := tokens.headD (Tokens.endOf text.toList)
  rcases hresult : captureFrom rule first [] none tokens with error | ⟨last?, rest'⟩
  · rw [hresult] at hrun
    cases hrun
  rw [hresult] at hrun
  cases last? with
  | none => cases hrun
  | some last =>
    obtain ⟨rfl, -⟩ := Prod.mk.inj (Except.ok.inj hrun)
    obtain ⟨hlast, hkind⟩ := captureFrom_last htokens.from_head (by simp) hresult last rfl
    have hle : first.start ≤ last.start := hlast.le_start
    have hlt := hlast.start_lt_stop hkind
    have hstop := hlast.spans.stop_le_length
    let spelling := (text.toList.drop last.start).take (last.stop - last.start)
    have hspelling : spelling ≠ [] := by
      refine List.ne_nil_of_length_pos ?_
      rw [List.length_take, List.length_drop]
      omega
    have htext : Text.slice text first.start last.stop =
        String.ofList ((text.toList.drop first.start).take (last.start - first.start) ++
          spelling) := by
      have hlength : last.stop - first.start =
          (last.start - first.start) + (last.stop - last.start) := by omega
      have hdrop : first.start + (last.start - first.start) = last.start := by omega
      rw [Text.slice, hlength, List.take_add, List.drop_drop, hdrop]
    have hc := List.getLast?_eq_some_getLast hspelling
    refine ⟨_, ?_, (hlast.spells hkind).last_not_blank _ hc⟩
    change (Text.slice text first.start last.stop).toList.getLast? = _
    rw [htext, String.toList_ofList, List.getLast?_append, hc]
    rfl

/-- The next token is an identifier when it is a name. -/
lemma isIdentifier_headD {tokens : List Token} (htokens : Ahead text.toList k tokens)
    (hname : let t := tokens.headD (Source.ofText host text).eof
      t.kind == .ident || (host.hasSoftKeywords && t.kind.isSoftKeyword)) :
    Text.isIdentifier (tokens.headD (Source.ofText host text).eof).value.toList := by
  refine htokens.head.isIdentifier_value ?_
  simp only [Source.eof_ofText, Bool.or_eq_true, beq_iff_eq, Bool.and_eq_true] at hname
  exact hname.imp_right And.right

lemma nameAfter {m : Modifier} :
    Returns host text k (nameAfter m) fun t => Text.isIdentifier t.value.toList := by
  intro tokens htokens name rest hrun
  simp only [Parser.nameAfter, run_bind, run_current, run_isName] at hrun
  split at hrun
  · rename_i hname
    rw [run_advance] at hrun
    obtain ⟨rfl, -⟩ := Prod.mk.inj (Except.ok.inj hrun)
    exact isIdentifier_headD htokens hname
  · split at hrun <;> cases hrun

lemma sourceField {stops : List TokenKind} :
    Returns host text k (sourceField stops) fun t => Text.isIdentifier t.value.toList := by
  intro tokens htokens name rest hrun
  simp only [Parser.sourceField, run_bind, run_current, run_following, run_isName] at hrun
  split at hrun
  · rename_i hname
    rw [run_advance] at hrun
    obtain ⟨rfl, -⟩ := Prod.mk.inj (Except.ok.inj hrun)
    exact isIdentifier_headD htokens (Bool.and_eq_true_iff.mp hname).1
  · cases hrun

lemma expectName {sought : Sought} :
    Returns host text k (expectName sought) fun t => Text.isIdentifier t.value.toList := by
  intro tokens htokens name rest hrun
  simp only [Parser.expectName, run_bind, run_current, run_isName] at hrun
  split at hrun
  · rename_i hname
    rw [run_advance] at hrun
    obtain ⟨rfl, -⟩ := Prod.mk.inj (Except.ok.inj hrun)
    exact isIdentifier_headD htokens hname
  · have hexpect : Ensures host text k (expect .ident sought) _ := Ensures.expect
    have hident := hexpect tokens htokens
    rw [hrun] at hident
    exact hident.1.1.isIdentifier_value (.inl hident.1.2)

lemma entry {stops : List TokenKind} {inGroup allowMut : Bool} :
    Returns host text k (entry stops inGroup allowMut) (Entry.IsWellFormed inGroup allowMut) := by
  refine bind Ensures.current fun first _ => bind Ensures.mutMark fun mark _ => ?_
  have hplain (name : String) (m : Modifier) (hname : Text.isIdentifier name.toList)
      (hm : m.IsValid) (hmutable : mark.isSome → allowMut = true) :
      Entry.IsWellFormed inGroup allowMut
        { name, modifier := m, mutable := mark.isSome, position := first.position } :=
    ⟨hname, by simp, by simp, by simp, by simp, hmutable, hm.hasOwnPath⟩
  rcases mark with _ | t
  case' some => refine ite (fun hallow => ?_) fun _ => failAt_bind
  all_goals
    refine bind Ensures.modifier fun m hm => bind (Ensures.nameAfter.and nameAfter) ?_
    intro name hname
    have hplain := hplain name.value m hname.2 hm (by simp [*])
    refine bind Ensures.accepts fun _ _ => ite (fun _ => ?_) fun _ => pure hplain
    refine ite (fun hgroup => ?_) fun hgroup => ?_
    · refine bind (Ensures.sourceField.and sourceField) fun source hsource => pure ?_
      exact { hplain with
        isIdentifier_name := hsource.2
        isIdentifier_rename := by simpa using hname.2
        inGroup_of_rename := fun _ => hgroup }
    · refine bind (Ensures.capture.and capture) fun value hvalue => pure ?_
      exact { hplain with
        direct_of_value := fun _ => by simpa using hgroup
        isWellFormed_value := by simpa using hvalue.2 }

lemma forall_mem_snoc {γ : Type} {R : γ → Prop} {cs : List γ} {c : γ} (hcs : ∀ d ∈ cs, R d)
    (hc : R c) : ∀ d ∈ cs ++ [c], R d := by
  intro d hd
  rcases List.mem_append.mp hd with hd | hd
  · exact hcs d hd
  · obtain rfl : d = c := by simpa using hd
    exact hc

lemma groupEntry {openBrace : Token} {allowMut : Bool} {entries : List Entry}
    (hentries : ∀ e ∈ entries, e.IsWellFormed true allowMut) :
    Returns host text k (groupEntry openBrace allowMut entries) fun entries =>
      ∀ e ∈ entries, e.IsWellFormed true allowMut := by
  refine bind Ensures.current fun t _ => ite (fun _ => failAt_bind) fun _ => ?_
  refine ite (fun _ => failAt_bind) fun _ => bind (Ensures.entry.and entry) fun e he => ?_
  refine bind Ensures.current fun next _ => ite (fun _ => failAt_bind) fun _ => pure ?_
  exact forall_mem_snoc hentries he.2

lemma group {rule : ListRule} :
    Returns host text k (group rule) (Group.IsWellFormed rule.allowMut) := by
  refine bind Ensures.advance fun openBrace hopen => ?_
  refine bind (Ensures.separated_and (fun _ h => Ensures.groupEntry hopen h)
    (fun _ h => groupEntry h) (by simp) (by simp)) fun entries hentries => ?_
  refine bind Ensures.skip fun _ _ => ite (fun _ => failAt_bind) fun hempty => ?_
  refine bind Ensures.current fun t _ => ite (fun _ => ?_) fun _ => failAt_bind
  refine bind Ensures.skip fun _ _ => bind (Ensures.capture.and capture) fun source hsource => ?_
  exact pure ⟨by simpa using hempty, hsource.2, hentries.2⟩

lemma item {rule : ListRule} {items : List Item}
    (hitems : ∀ i ∈ items, i.IsWellFormed rule.allowMut) :
    Returns host text k (item rule items) fun items =>
      ∀ i ∈ items, i.IsWellFormed rule.allowMut := by
  refine bind Ensures.current fun t _ => ite (fun _ => failAt) fun _ =>
    ite (fun _ => ?_) fun _ => ?_
  · exact bind (Ensures.group.and group) fun g hg => pure (forall_mem_snoc hitems hg.2)
  · refine ite (fun _ => failAt) fun _ => ?_
    exact bind (Ensures.entry.and entry) fun e he => pure (forall_mem_snoc hitems he.2)

lemma base {rule : ListRule} :
    Returns host text k (base rule) fun base =>
      (base.isSome → rule.allowBase = true) ∧ ∀ e ∈ base, e.IsWellFormed := by
  refine bind Ensures.current fun t _ => ite (fun _ => ?_) fun _ => pure (by simp)
  refine ite (fun hallow => ?_) fun _ => failAt_bind
  refine bind Ensures.skip fun _ _ => bind (Ensures.capture.and capture) fun base hbase => ?_
  refine bind Ensures.current fun next _ => ite (fun _ => failAt_bind) fun _ => pure ?_
  exact ⟨fun _ => hallow, by simpa using hbase.2⟩

lemma fieldList {rule : ListRule} :
    Returns host text k (fieldList rule)
      (Composition.IsWellFormed rule.allowBase rule.allowMut) := by
  refine bind (Ensures.separated_and (fun _ h => Ensures.item h) (fun _ h => item h) (by simp)
    (by simp)) fun items hitems => ?_
  exact bind (Ensures.base.and base) fun base hbase => pure ⟨hbase.2.1, hbase.2.2, hitems.2⟩

lemma wholeFieldList {allowBase allowMut : Bool} :
    Returns host text k (wholeFieldList allowBase allowMut)
      (Composition.IsWellFormed allowBase allowMut) := by
  refine bind Ensures.remaining fun tokens _ => ite (fun _ => ?_) fun _ => fieldList
  refine bind Ensures.skip fun _ _ => bind (Ensures.fieldList.and fieldList) fun c hc => ?_
  exact bind Ensures.expect fun _ _ => pure hc.2

/-- The bare names are the items of the field list, which holds nothing else. -/
lemma bareName {i : Item} :
    Returns host text k (bareName i) fun e => i = .entry e ∧ e.value = none := by
  cases i with
  | group g => exact failAt
  | entry e => exact ite (fun _ => failAt_bind) fun hvalue => pure ⟨rfl, by simpa using hvalue⟩

lemma rebindingEntries : Returns host text k rebindingEntries fun entries =>
    entries ≠ [] ∧ ∀ e ∈ entries, e.IsWellFormed false true ∧ e.value = none := by
  refine bind Ensures.current fun first _ => ?_
  refine bind (Ensures.wholeFieldList.and wholeFieldList) fun c hc => ?_
  refine bind Ensures.expectEnd fun _ _ => ite (fun _ => failAt_bind) fun hempty => ?_
  have hbare (i : Item) (hi : i ∈ c.items) : Ensures host text k (Parser.bareName i) fun e =>
      e.IsWellFormed false true ∧ e.value = none := by
    refine ((Ensures.bareName (hc.1 i hi)).and bareName).mono ?_
    rintro e ⟨-, rfl, hvalue⟩
    exact ⟨hc.2.isWellFormed_items _ hi, hvalue⟩
  refine (Ensures.mapM hbare).returns.mono fun entries hentries => ⟨?_, hentries.2⟩
  rintro rfl
  simp [Composition.isEmpty, List.eq_nil_of_length_eq_zero hentries.1.symm] at hempty

lemma cloneEntry {e : Entry} :
    Returns host text k (cloneEntry e) (· = { e with modifier := .clone }) :=
  ite (fun _ => pure rfl) fun _ => failAt_bind

lemma rebinding : Returns host text k rebinding (Invocation.IsWellFormed .slet) := by
  refine bind (Ensures.rebindingEntries.and rebindingEntries) fun entries hentries => pure ?_
  exact Composition.isWellFormed_of_bare hentries.2.1 hentries.2.2

lemma cloneRebinding : Returns host text k cloneRebinding (Invocation.IsWellFormed .clone) := by
  refine bind (Ensures.rebindingEntries.and rebindingEntries) fun entries hentries => ?_
  have hclone (e : Entry) (he : e ∈ entries) : Ensures host text k (Parser.cloneEntry e) fun e' =>
      (e'.IsWellFormed false true ∧ e'.value = none) ∧ e'.modifier = .clone := by
    refine ((Ensures.cloneEntry (hentries.1 e he)).and cloneEntry).mono ?_
    rintro _ ⟨-, rfl⟩
    have hwell := hentries.2.2 e he
    have hpath : Modifier.HasOwnPath .clone := ⟨by decide, by decide⟩
    exact ⟨⟨{ hwell.1 with hasOwnPath_modifier := hpath }, hwell.2⟩, rfl⟩
  refine bind (Ensures.mapM hclone) fun clones hclones => pure ?_
  have hne : clones ≠ [] := by
    rintro rfl
    exact hentries.2.1 (List.eq_nil_of_length_eq_zero hclones.1.symm)
  have hwell := Composition.isWellFormed_of_bare hne fun e he => (hclones.2 e he).1
  refine ⟨hwell.1, hwell.2, fun e he => (hclones.2 e ?_).2⟩
  rwa [Composition.entries_map_entry] at he

lemma structUpdate : Returns host text k structUpdate (Invocation.IsWellFormed .spread) := by
  refine bind (Ensures.capture.and capture) fun typePath hpath => ?_
  refine bind Ensures.expect fun _ _ => ?_
  refine bind (Ensures.fieldList.and fieldList) fun c hc => bind Ensures.expect fun _ _ => ?_
  exact bind Ensures.expectEnd fun _ _ => pure ⟨hpath.2, hc.2⟩

lemma anonRecord : Returns host text k anonRecord (Invocation.IsWellFormed .anon) := by
  refine bind Ensures.current fun first _ => ?_
  refine bind (Ensures.wholeFieldList.and wholeFieldList) fun c hc => ?_
  refine bind Ensures.expectEnd fun _ _ => ite (fun _ => failAt_bind) fun hempty => ?_
  exact pure ⟨hc.2, by simpa [Composition.isEmpty] using hempty⟩

/-- An argument is not named `self`: that name makes it the receiver. -/
lemma argument : Returns host text k argument
    (Sum.elim Argument.IsWellFormed fun m => m = .direct ∨ m = .ref ∨ m = .refMut) := by
  refine bind Ensures.current fun first _ => bind Ensures.modifier fun m hm => ?_
  refine bind (Ensures.nameAfter.and nameAfter) fun name hname => ite (fun _ => ?_) fun hself => ?_
  · exact ite (fun hreceiver => pure (by simpa [or_assoc] using hreceiver)) fun _ => failAt_bind
  · refine bind Ensures.typeAfter? fun type _ => bind Ensures.accepts fun hasDefault _ => ?_
    have hwell (default : Option Expression) (h : ∀ e ∈ default, e.IsWellFormed) :
        Argument.IsWellFormed
          { name := name.value, modifier := m, type, default, position := first.position } :=
      ⟨hname.2, hself, h, hm.hasOwnPath⟩
    have hdefault {rule : CaptureRule} : Ensures host text k (some <$> Parser.capture rule)
        fun default => ∀ e ∈ default, e.IsWellFormed :=
      (Ensures.capture.and capture).map fun e he => by simpa using he.2
    have hnone : Ensures host text k (Pure.pure (none : Option Expression))
        fun default => ∀ e ∈ default, e.IsWellFormed := Ensures.pure (by simp)
    refine ite (fun _ => ?_) fun _ => bind hnone fun default h => pure (hwell default h)
    exact bind hdefault fun default h => pure (hwell default h)

lemma nextArgument {openParen : Token} {state : Option Modifier × List Argument}
    (hreceiver : ∀ m ∈ state.1, m = .direct ∨ m = .ref ∨ m = .refMut)
    (hargs : ∀ a ∈ state.2, a.IsWellFormed) :
    Returns host text k (nextArgument openParen state) fun state =>
      (∀ m ∈ state.1, m = .direct ∨ m = .ref ∨ m = .refMut) ∧
        ∀ a ∈ state.2, a.IsWellFormed := by
  refine bind Ensures.current fun t _ => ite (fun _ => failAt_bind) fun _ => ?_
  refine bind (Ensures.argument.and argument) fun read hread => ?_
  cases read with
  | inr receiver =>
    refine ite (fun _ => pure ⟨?_, by simp⟩) fun _ => failAt_bind
    rintro m hm
    obtain rfl : receiver = m := by simpa using hm
    exact hread.2
  | inl a => exact pure ⟨hreceiver, forall_mem_snoc hargs hread.2⟩

lemma holder : Returns host text k holder (Invocation.IsWellFormed .fnStruct) := by
  refine bind Ensures.visibility fun visibility _ => bind Ensures.accept? fun _ _ => ?_
  refine bind Ensures.accepts fun byRef _ => bind Ensures.expect fun name hname => ?_
  refine bind Ensures.generics fun params _ => bind Ensures.typeAfter? fun whereClause _ => ?_
  refine bind Ensures.expect fun _ _ => bind Ensures.generics fun callGenerics _ => ?_
  refine bind Ensures.typeAfter? fun callWhere _ => bind Ensures.expect fun _ _ => ?_
  refine bind Ensures.current fun pathStart _ => bind Ensures.typeText fun path _ => ?_
  refine bind Ensures.expect fun openParen hopen => ?_
  refine bind (Ensures.separated_and (fun _ h => Ensures.nextArgument hopen.1 h.1 h.2)
    (fun _ h => nextArgument h.1 h.2) ⟨by simp, by simp⟩ ⟨by simp, by simp⟩) ?_
  rintro ⟨receiver, args⟩ ⟨-, hreceiver, hargs⟩
  refine bind Ensures.skip fun _ _ => bind Ensures.typeAfter? fun returnType _ => ?_
  refine bind Ensures.expectEnd fun _ _ => ite (fun _ => failAt_bind) fun hdefaults => ?_
  refine ite (fun _ => failAt_bind) fun _ => pure ⟨?_, hreceiver, hargs, ?_⟩
  · exact hname.1.isIdentifier_value (.inl hname.2)
  by_cases hany : args.any (·.default.isSome)
  · exact .inl (by simpa [hany, Option.isSome_iff_ne_none] using hdefaults)
  · exact .inr (by simpa using hany)

/-- A name that is read is none of those before it. -/
lemma nextFieldName {names : List Token}
    (hnames : (∀ t ∈ names, Text.isIdentifier t.value.toList) ∧ (names.map Token.value).Nodup) :
    Returns host text k (nextFieldName names) fun names =>
      (∀ t ∈ names, Text.isIdentifier t.value.toList) ∧ (names.map Token.value).Nodup := by
  refine bind (Ensures.expectName.and expectName) fun t ht => ?_
  cases hfind : names.find? (·.value == t.value) with
  | some first => exact fun _ _ _ _ hrun => by cases hrun
  | none =>
    refine pure ⟨forall_mem_snoc hnames.1 ht.2, ?_⟩
    rw [List.map_append, List.nodup_append]
    refine ⟨hnames.2, by simp, ?_⟩
    simpa [List.find?_eq_none] using hfind

lemma fieldNames : Returns host text k fieldNames fun names =>
    names ≠ [] ∧ (∀ name ∈ names, Text.isIdentifier name.toList) ∧ names.Nodup := by
  refine bind Ensures.expect fun openBracket hopen => ?_
  refine bind (Ensures.separated_and (fun _ h => Ensures.nextFieldName h)
    (fun _ h => nextFieldName h) (by simp) ⟨by simp, by simp⟩) fun names hnames => ?_
  refine bind Ensures.skip fun _ _ => ite (fun _ => failAt_bind) fun hempty => pure ?_
  exact ⟨by simpa using hempty, by simpa using hnames.2.1, hnames.2.2⟩

/-- The side that an assertion compares with names fields, each of them once. -/
lemma expectedRecord : Returns host text k expectedRecord fun expected =>
    ∀ actual formatArgs, actual.IsWellFormed → (∀ arg ∈ formatArgs, arg.IsWellFormed) →
      Assertion.IsWellFormed ⟨actual, expected, formatArgs⟩ := by
  refine bind Ensures.advance fun openBrace _ => ?_
  refine bind (Ensures.fieldList.and fieldList) fun c hc => bind Ensures.expect fun _ _ => ?_
  refine ite (fun _ => failAt_bind) fun hempty => pure fun actual formatArgs hactual hargs => ?_
  have hne := hc.2.entries_ne_nil (by simpa [Composition.isEmpty] using hempty)
  refine ⟨hactual, hargs, by simpa [Assertion.fields] using hne, fun field hfield => ?_, rfl, hc.2⟩
  obtain ⟨e, he, rfl⟩ := List.mem_map.mp hfield
  obtain ⟨inGroup, hwell⟩ := hc.2.entries e he
  exact hwell.isIdentifier_target

lemma expectedValue : Returns host text k expectedValue fun expected =>
    ∀ actual formatArgs, actual.IsWellFormed → (∀ arg ∈ formatArgs, arg.IsWellFormed) →
      Assertion.IsWellFormed ⟨actual, expected, formatArgs⟩ := by
  refine bind (Ensures.capture.and capture) fun value hvalue => bind Ensures.expect fun _ _ => ?_
  refine bind (Ensures.fieldNames.and fieldNames) fun names hnames => pure ?_
  exact fun _ _ hactual hargs =>
    ⟨hactual, hargs, hnames.2.1, hnames.2.2.1, hvalue.2, rfl, hnames.2.2.2⟩

lemma messageArgument {args : List Expression} (hargs : ∀ arg ∈ args, arg.IsWellFormed) :
    Returns host text k (messageArgument args) fun args => ∀ arg ∈ args, arg.IsWellFormed :=
  bind (Ensures.capture.and capture) fun _ harg => pure (forall_mem_snoc hargs harg.2)

lemma assertion : Returns host text k assertion (Invocation.IsWellFormed .assertFieldsEq) := by
  refine bind (Ensures.capture.and capture) fun actual hactual => bind Ensures.expect fun _ _ => ?_
  refine bind Ensures.current fun t _ => ite (fun _ => ?_) fun _ => ?_
  case' refine_1 =>
    refine bind (Ensures.expectedRecord.and expectedRecord) fun expected hexpected => ?_
  case' refine_2 =>
    refine bind (Ensures.expectedValue.and expectedValue) fun expected hexpected => ?_
  all_goals
    refine bind Ensures.accepts fun hasComma _ => ite (fun _ => ?_) fun _ => ?_
    · refine bind (Ensures.separated_and (fun _ _ => Ensures.messageArgument)
        (fun _ h => messageArgument h) trivial (by simp)) fun args hargs => ?_
      refine bind Ensures.expectEnd fun _ _ => pure ?_
      exact hexpected.2 actual args hactual.2 hargs.2
    · refine bind (Ensures.pure rfl) fun args hargs => ?_
      refine bind Ensures.expectEnd fun _ _ => pure ?_
      exact hexpected.2 actual args hactual.2 (by simp [← hargs])

theorem invocation (entryPoint : EntryPoint) :
    Returns host text k (invocation entryPoint) (Invocation.IsWellFormed entryPoint) := by
  cases entryPoint with
  | spread => exact structUpdate
  | anon => exact anonRecord
  | slet => exact rebinding
  | clone => exact cloneRebinding
  | fnStruct => exact holder
  | assertFieldsEq => exact assertion

/-- What a parser returns on a whole text. -/
lemma of_onText (hp : Returns host text 0 p P) {a : α} (h : onText p host text = .ok a) :
    P a := by
  have htokens := Tokens.outcome_ofText host text
  unfold onText at h
  cases hresult : Tokens.ofText host text with
  | error error =>
    rw [hresult] at h
    exact absurd h (by simp)
  | ok tokens =>
    rw [hresult] at h htokens
    obtain ⟨htiled, heof⟩ := htokens
    dsimp only at h
    rw [heof] at h
    change (p.run (.ofText host text) tokens.body).map (·.1) = .ok a at h
    cases hrun : p.run (.ofText host text) tokens.body with
    | error error =>
      rw [hrun] at h
      exact absurd h (by simp [Except.map])
    | ok result =>
      rw [hrun] at h
      obtain rfl : result.1 = a := Except.ok.inj h
      exact hp tokens.body (.of_tiled htiled le_rfl) result.1 result.2 hrun

end Returns

end Parser

/-- Every invocation that is read from a text is well formed. -/
theorem Invocation.isWellFormed_of_ofText {entryPoint : EntryPoint} {host : Host} {text : String}
    {i : Invocation} (h : Invocation.ofText entryPoint host text = .ok i) :
    i.IsWellFormed entryPoint :=
  (Parser.Returns.invocation entryPoint).of_onText h

/-- A group with a rename and a custom modifier, an entry named by a soft keyword, and a base. -/
def Invocation.softNames : Invocation :=
  .structUpdate ⟨"P", ⟨1, 1⟩⟩
    { items := [
        .group ⟨[⟨"fn", .ref, some "a", none, false, ⟨1, 7⟩⟩,
          ⟨"c", .customRef "m.f", none, none, false, ⟨1, 15⟩⟩], ⟨"s", ⟨1, 29⟩⟩, ⟨1, 5⟩⟩,
        .entry ⟨"pub", .direct, none, some ⟨"x[0]", ⟨1, 37⟩⟩, false, ⟨1, 32⟩⟩]
      base := some ⟨"r", ⟨1, 45⟩⟩ }

theorem isWellFormed_softNames :
    let text := "P \x7b \x7b &a: fn, [m.f]& c \x7d in s, pub: x[0], ..r \x7d"
    Invocation.ofText .spread (.dialect .python) text = .ok .softNames ∧
      Invocation.softNames.IsWellFormed .spread := by
  intro text
  have hread : Invocation.ofText .spread (.dialect .python) text = .ok .softNames := by
    decide +kernel
  exact ⟨hread, Invocation.isWellFormed_of_ofText hread⟩

end FieldComposition
