import FieldComposition.Proofs.BindingNames
import FieldComposition.Proofs.SeparableInvocation

/-!
# Emitted values are separable

Where the names in the settings are words, so are the names that the sources of groups are bound
to (`FieldTable.isWord_sourceName`). The values that a table gives to its fields are then separable,
and every modifier keeps them so (`Python.Term.separable_ofModifier`).
-/

namespace FieldComposition

namespace Text

/-- Characters that any word may go on with. -/
def IsWordRest (cs : List Char) : Prop :=
  ∀ c ∈ cs, isIdentifierPart c ∧ isWordChar c

variable {cs ds : List Char}

lemma IsWord.isWordRest (h : IsWord cs) : IsWordRest cs :=
  fun c hc => ⟨isIdentifierPart_of_isIdentifier h.isIdentifier c hc, h.isWordChar c hc⟩

lemma IsWordRest.append (h : IsWordRest cs) (h' : IsWordRest ds) : IsWordRest (cs ++ ds) := by
  intro c hc
  rcases List.mem_append.mp hc with hc | hc
  · exact h c hc
  · exact h' c hc

lemma IsWord.append (h : IsWord cs) (hds : IsWordRest ds) : IsWord (cs ++ ds) :=
  ⟨(isIdentifier_append h.ne_nil).mpr ⟨h.isIdentifier, fun d hd => (hds d hd).1⟩,
    fun d hd => ((h.isWordRest.append hds) d hd).2⟩

lemma isWordRest_underscore : IsWordRest ['_'] := by
  intro c hc
  rw [List.mem_singleton.mp hc]
  decide +kernel

lemma isWordRest_toString (n : Nat) : IsWordRest (toString n).toList := by
  intro c hc
  have hdigit : c.isDigit :=
    Nat.isDigit_of_mem_toDigits (by decide) (by decide) (Nat.toList_repr ▸ hc)
  have hdecimal := isDecimalDigit_of_isDigit hdigit
  constructor
  · rw [isIdentifierPart, hdecimal, Bool.or_true, Bool.true_or]
  · rw [isWordChar, hdecimal, Bool.or_true, Bool.true_or, Bool.true_or]

/-- What is put behind a name that is taken. -/
lemma isWordRest_index (i : ℕ) : IsWordRest ("_".toList ++ (toString i).toList) :=
  isWordRest_underscore.append (isWordRest_toString i)

/-- What is made of pieces and a separator is made of their characters. -/
lemma forall_mem_intercalate {P : Char → Prop} {separator : List Char} {pieces : List (List Char)}
    (hseparator : ∀ c ∈ separator, P c) (hpieces : ∀ piece ∈ pieces, ∀ c ∈ piece, P c) :
    ∀ c ∈ separator.intercalate pieces, P c := by
  induction pieces with
  | nil => simp
  | cons piece pieces ih =>
    have hpiece := hpieces piece List.mem_cons_self
    have hrest := ih fun piece' h => hpieces piece' (List.mem_cons_of_mem _ h)
    cases pieces with
    | nil =>
      rw [List.intercalate_singleton]
      exact hpiece
    | cons next pieces =>
      rw [List.intercalate_cons_cons]
      intro c hc
      rcases List.mem_append.mp hc with hc | hc
      · rcases List.mem_append.mp hc with hc | hc
        · exact hpiece c hc
        · exact hseparator c hc
      · exact hrest c hc

end Text

/-- The names in the settings are words: the lexer reads each of them as one token. -/
structure Settings.HasWordNames (settings : Settings) : Prop where
  runtimeAlias : Text.IsWord settings.runtimeAlias.toList
  bindingStem : Text.IsWord settings.bindingStem.toList
  anonTypeName : Text.IsWord settings.anonTypeName.toList

instance (settings : Settings) : Decidable settings.HasWordNames :=
  decidable_of_iff (Text.IsWord settings.runtimeAlias.toList ∧
      Text.IsWord settings.bindingStem.toList ∧ Text.IsWord settings.anonTypeName.toList)
    ⟨fun h => ⟨h.1, h.2.1, h.2.2⟩, fun h => ⟨h.1, h.2, h.3⟩⟩

lemma Settings.isIdentifier_of_stemFault {stem : String} (h : stemFault? stem = none) :
    Text.isIdentifier stem.toList := by
  rw [stemFault?] at h
  split_ifs at h with hstem
  obtain ⟨hne, hidentifier⟩ := Bool.and_eq_true_iff.mp hstem
  have hne : stem.toList ≠ [] := mt String.toList_eq_nil_iff.mp (of_decide_eq_true hne)
  exact ((Text.isIdentifier_append hne).mp hidentifier).1

namespace FieldTable

variable {stem : String} (hstem : Text.IsWord stem.toList)

include hstem

lemma isWord_bindingName {g : Group} (hg : ∀ e ∈ g.entries, Text.IsWord e.name.toList) :
    Text.IsWord (g.bindingName stem).toList := by
  rw [Group.bindingName, String.toList_append, String.toList_intercalate]
  apply hstem.append
  apply Text.forall_mem_intercalate Text.isWordRest_underscore
  intro name hname
  rw [List.map_map] at hname
  obtain ⟨e, he, rfl⟩ := List.mem_map.mp hname
  exact (hg e he).isWordRest

lemma isWord_bindingNames {t : FieldTable}
    (hgroups : ∀ g ∈ t.groups, ∀ e ∈ g.entries, Text.IsWord e.name.toList) :
    ∀ name ∈ t.bindingNames stem, Text.IsWord name.toList := by
  apply forall_mem_bindingNames
  · intro group hgroup
    exact isWord_bindingName hstem (hgroups group hgroup)
  · intro i name hname
    rw [String.toList_append, String.toList_append]
    exact hname.append (Text.isWordRest_index i)

/-- The source of a group is bound to a word. -/
lemma isWord_sourceName {t : FieldTable} {g : Group}
    (hgroups : ∀ g ∈ t.groups, ∀ e ∈ g.entries, Text.IsWord e.name.toList) (hg : g ∈ t.groups) :
    Text.IsWord (t.sourceName stem g).toList := by
  rw [sourceName, bindingOf]
  cases hname : (t.bindingNames stem)[t.groups.idxOf g]? with
  | none => exact isWord_bindingName hstem (hgroups g hg)
  | some name =>
    exact isWord_bindingNames hstem hgroups name (List.mem_of_getElem? hname)

end FieldTable

namespace Code

variable {tab : String}

@[simp] lemma toList_render_text (s : String) : ((text s).render tab).toList = s.toList := rfl

@[simp] lemma toList_render_append (first second : Code) :
    ((first ++ second).render tab).toList =
      (first.render tab).toList ++ (second.render tab).toList :=
  String.toList_append

/-- A body between two lines is indented. -/
lemma toList_render_enclosed (first last : Code) (body : List Code) :
    ((enclosed first body last).render tab).toList = (first.render tab).toList ++
      '\n' :: (Text.indentLines tab.toList ((joined "\n" body).render tab).toList ++
        '\n' :: (last.render tab).toList) := by
  change ((first ++ text "\n" ++ (indented (joined "\n" body) ++ text "\n" ++ last)).render
    tab).toList = _
  simp [render, Text.indent]

end Code

/-- The value of an entry that stands alone is an expression of its composition. -/
lemma Composition.value_mem_expressions {c : Composition} {claim : Claim} {value : Expression}
    (hclaim : claim ∈ c.allClaims) (hgroup : claim.group = none)
    (hvalue : claim.entry.value = some value) : value ∈ c.expressions := by
  obtain ⟨pair, hpair, rfl⟩ := List.mem_map.mp hclaim
  obtain ⟨i, hi, hmem⟩ := List.mem_flatMap.mp hpair
  refine List.mem_append_left _ (List.mem_flatMap.mpr ⟨i, hi, ?_⟩)
  cases i with
  | entry e =>
    obtain rfl : pair = (e, none) := by simpa [Item.claims] using hmem
    simpa [Item.expressions] using hvalue
  | group g =>
    obtain ⟨e, he, rfl⟩ := List.mem_map.mp hmem
    cases hgroup

namespace Composition.IsSeparable

variable {c : Composition} {settings : Settings}

lemma isSeparable_entry (h : c.IsSeparable) {claim : Claim} (hclaim : claim ∈ c.allClaims) :
    claim.entry.IsSeparable := by
  have hentry : claim.entry ∈ c.entries := by
    rw [← map_entry_allClaims]
    exact List.mem_map_of_mem hclaim
  obtain ⟨i, hi, he⟩ := List.mem_flatMap.mp hentry
  exact h.isSeparable_entries i hi _ he

lemma isWord_group (h : c.IsSeparable) :
    ∀ g ∈ c.groups, ∀ e ∈ g.entries, Text.IsWord e.name.toList := by
  intro g hg e he
  obtain ⟨i, hi, hgroup⟩ := List.mem_filterMap.mp hg
  cases i with
  | entry e' => cases hgroup
  | group g' =>
    obtain rfl := Option.some.inj hgroup
    exact (h.isSeparable_entries _ hi e he).isWord_name

/-- The value that a field starts from is separable. -/
lemma separable_operand (h : c.IsSeparable) (hnames : settings.HasWordNames)
    (hturbofish : ∀ e ∈ c.expressions, ¬Text.HasTurbofish e.text) {claim : Claim}
    (hclaim : claim ∈ c.allClaims) (tab : String) :
    Separable false ((c.table.operand settings.bindingStem claim).code.render tab).toList := by
  have hentry := h.isSeparable_entry hclaim
  rw [FieldTable.operand]
  cases hgroup : claim.group with
  | some g =>
    obtain ⟨hg, he⟩ := mem_groups_of_mem_allClaims hclaim hgroup
    have howner : Text.IsWord (c.table.sourceName settings.bindingStem g).toList :=
      FieldTable.isWord_sourceName hnames.bindingStem h.isWord_group hg
    have hfield : ((Operand.field (c.table.sourceName settings.bindingStem g)
        claim.entry.name).code.render tab).toList =
        (c.table.sourceName settings.bindingStem g).toList ++ '.' :: claim.entry.name.toList := by
      simp [Operand.code]
    rw [hfield]
    exact .dotted howner hentry.isWord_name
  | none =>
    cases hvalue : claim.entry.value with
    | none => exact .word hentry.isWord_name
    | some value =>
      exact hentry.isSeparable_value value hvalue
        (hturbofish value (value_mem_expressions hclaim hgroup hvalue))

end Composition.IsSeparable

namespace Python

variable {runtimeName tab : String} (hruntime : Text.IsWord runtimeName.toList)

include hruntime

/-- A call into the runtime module. -/
lemma separable_runtimeCall {name : String} {args : List Char} (hname : Text.IsWord name.toList)
    (hargs : Separable true args) :
    Separable false ((runtimeName.toList ++ '.' :: name.toList) ++ '(' :: (args ++ [')'])) :=
  .call (.dotted hruntime hname) hargs

/-- Every modifier keeps a separable value separable. -/
lemma Term.separable_ofModifier {m : Modifier} {o : Operand} {target field : String}
    (hpath : ∀ path ∈ m.path?, Separable false path.toList)
    (ho : Separable false (o.code.render tab).toList) (htarget : Separable false target.toList) :
    Separable false
      (((ofModifier m o (some (target, field))).code runtimeName).render tab).toList := by
  have hclone {value : Term} (h : Separable false ((value.code runtimeName).render tab).toList) :
      Separable false (((clone value).code runtimeName).render tab).toList := by
    have hword : Text.IsWord "clone".toList := by decide +kernel
    simpa [code] using separable_runtimeCall hruntime hword h.weaken
  have hconvert {value : Term} (h : Separable false ((value.code runtimeName).render tab).toList) :
      Separable false (((convert value target field).code runtimeName).render tab).toList := by
    have hword : Text.IsWord "into".toList := by decide +kernel
    have hname : Separable false (Text.quotedChars field.toList) := .quoted field.toList
    have hargs := (h.weaken.join htarget).join hname
    simpa [code, Text.quoted] using separable_runtimeCall hruntime hword hargs
  have happly {path : String} (h : Separable false path.toList) :
      Separable false (((apply path (operand o)).code runtimeName).render tab).toList := by
    simpa [code] using h.call ho.weaken
  cases m with
  | direct => exact ho
  | clone => exact hclone ho
  | ref => exact ho
  | refMut => exact ho
  | into => exact hconvert ho
  | cloneInto => exact hconvert (hclone ho)
  | custom path => exact happly (hpath path rfl)
  | customRef path => exact happly (hpath path rfl)
  | customRefMut path => exact happly (hpath path rfl)

end Python

end FieldComposition
