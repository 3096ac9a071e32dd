import FieldComposition.Proofs.BindingNames
import FieldComposition.Proofs.RecordCode
import Mathlib.Logic.Function.Basic

/-!
# Running the code of a record

A plan runs in a host whose texts depend only on the names that occur in them: its bindings extend
the environment one after another, then every initialiser gives its target a value. The code of a
resolved composition gives each target the modified value of its own entry in the environment before
any binding (`run_record_code`).
-/

namespace FieldComposition

/-- What a host makes of texts of the caller, of fields and of modifiers. -/
structure HostSemantics (V : Type) where
  /-- A name occurs in a text as an identifier. -/
  Occurs : String → String → Prop
  eval : (String → V) → String → V
  field : V → String → V
  modify : Modifier → String → V → V
  /-- The value of a text depends only on the names that occur in it. -/
  eval_congr : ∀ env env' text, (∀ name, Occurs name text → env name = env' name) →
    eval env text = eval env' text

/-- The names that are bound, the fields that are initialised, and the texts that were evaluated on
the way, in order. -/
structure RecordState (V : Type) where
  env : String → V
  fields : List (String × V) := []
  evaluated : List String := []

/-- The text that an entry outside a group is given its value by. -/
def Entry.valueText (e : Entry) : String :=
  (e.value.map Expression.text).getD e.name

section Run

variable {V : Type} (host : HostSemantics V)

/-- The value of an operand: that of its text, or a field of a bound name. -/
def Operand.value (env : String → V) : Operand → V
  | .host text => host.eval env text
  | .field owner name => host.field (env owner) name

namespace RecordState

/-- Evaluates a source and binds it to a name. -/
def bind (s : RecordState V) (b : String × Expression) : RecordState V :=
  { s with
    env := Function.update s.env b.1 (host.eval s.env b.2.text)
    evaluated := s.evaluated ++ [b.2.text] }

/-- Gives a target the modified value of an operand. -/
def setField (s : RecordState V) (i : Initializer) : RecordState V :=
  { s with
    fields := s.fields ++ [(i.target, host.modify i.modifier i.target (i.operand.value host s.env))]
    evaluated := s.evaluated ++ i.operand.hostTexts }

/-- Bindings of different names none of which occurs in a source give every name the value of its
own source before all of them, and leave other names alone. -/
lemma foldl_bind (bs : List (String × Expression)) (s : RecordState V)
    (hnodup : (bs.map Prod.fst).Nodup)
    (hfresh : ∀ name ∈ bs.map Prod.fst, ∀ b ∈ bs, ¬host.Occurs name b.2.text) :
    let s' := bs.foldl (bind host) s
    (∀ name, name ∉ bs.map Prod.fst → s'.env name = s.env name) ∧
      (∀ b ∈ bs, s'.env b.1 = host.eval s.env b.2.text) ∧
      s'.fields = s.fields ∧ s'.evaluated = s.evaluated ++ bs.map fun b => b.2.text := by
  induction bs generalizing s with
  | nil => simp
  | cons b bs ih =>
    rw [List.map_cons, List.nodup_cons] at hnodup
    have hrest : ∀ name ∈ bs.map Prod.fst, ∀ b ∈ bs, ¬host.Occurs name b.2.text :=
      fun name hname b' hb' =>
        hfresh name (List.mem_cons_of_mem _ hname) b' (List.mem_cons_of_mem _ hb')
    obtain ⟨henv, hvalues, hfields, hevaluated⟩ := ih (bind host s b) hnodup.2 hrest
    rw [List.foldl_cons]
    refine ⟨fun name hname => ?_, fun b' hb' => ?_, hfields, ?_⟩
    · rw [List.map_cons, List.mem_cons, not_or] at hname
      rw [henv name hname.2]
      exact Function.update_of_ne hname.1 ..
    · rcases List.mem_cons.mp hb' with rfl | hb'
      · rw [henv _ hnodup.1]
        exact Function.update_self ..
      · rw [hvalues b' hb']
        refine host.eval_congr _ _ _ fun name hoccurs => Function.update_of_ne ?_ ..
        rintro rfl
        exact hfresh _ (by simp) b' (List.mem_cons_of_mem _ hb') hoccurs
    · rw [hevaluated, List.map_cons]
      simp [bind]

/-- Initialisers leave the names alone and append one field each. -/
lemma foldl_setField (is : List Initializer) (s : RecordState V) :
    is.foldl (setField host) s =
      { s with
        fields := s.fields ++ is.map fun i =>
          (i.target, host.modify i.modifier i.target (i.operand.value host s.env))
        evaluated := s.evaluated ++ is.flatMap fun i => i.operand.hostTexts } := by
  induction is generalizing s with
  | nil => simp
  | cons i is ih =>
    rw [List.foldl_cons, ih]
    simp [setField]

end RecordState

/-- Runs the bindings of a plan in order and then its initialisers. -/
def Plan.run (env : String → V) (p : Plan) : RecordState V :=
  p.initializers.foldl (RecordState.setField host)
    (p.bindings.foldl (RecordState.bind host) { env })

/-- The value that a claim starts from: a field of the value of its group's source, or the value of
its own text. -/
def Claim.value (env : String → V) (c : Claim) : V :=
  match c.group with
  | some group => host.field (host.eval env group.source.text) c.entry.name
  | none => host.eval env c.entry.valueText

end Run

namespace Composition

/-- The texts of the caller in a composition. -/
def hostTexts (c : Composition) : List String :=
  c.groups.map (fun g => g.source.text) ++ c.directEntries.map Entry.valueText ++
    c.base.toList.map Expression.text

lemma mem_directEntries {c : Composition} {claim : Claim} (h : claim ∈ c.allClaims)
    (hgroup : claim.group = none) : claim.entry ∈ c.directEntries := by
  obtain ⟨pair, hpair, rfl⟩ := List.mem_map.mp h
  obtain ⟨i, hi, hmem⟩ := List.mem_flatMap.mp hpair
  cases i with
  | entry e =>
    obtain rfl : pair = (e, none) := by simpa [Item.claims] using hmem
    exact List.mem_filterMap.mpr ⟨.entry e, hi, rfl⟩
  | group g =>
    obtain ⟨e, -, rfl⟩ := List.mem_map.mp hmem
    exact absurd hgroup (by simp)

variable (c : Composition) (stem : String)

lemma map_fst_bindings_plan (h : c.groups.Nodup) :
    (c.table.plan stem).bindings.map Prod.fst = c.table.bindingNames stem := by
  rw [← FieldTable.map_sourceName h]
  exact List.map_map ..

lemma map_snd_bindings_plan :
    (c.table.plan stem).bindings.map Prod.snd = c.groups.map Group.source :=
  List.map_map ..

lemma sourceTexts_plan :
    (c.table.plan stem).sourceTexts = c.groups.map fun g => g.source.text :=
  List.map_map ..

lemma valueTexts_plan :
    (c.table.plan stem).valueTexts = c.directEntries.map Entry.valueText := by
  have hdirect (e : Entry) : (c.table.operand stem ⟨e, none⟩).hostTexts = [e.valueText] := by
    cases hvalue : e.value <;> simp [FieldTable.operand, hvalue, Operand.hostTexts, Entry.valueText]
  have hgrouped (e : Entry) (g : Group) : (c.table.operand stem ⟨e, some g⟩).hostTexts = [] := rfl
  have hitem (i : Item) : (i.claims.flatMap fun pair =>
      (c.table.operand stem ⟨pair.1, pair.2⟩).hostTexts) = i.entry?.toList.map Entry.valueText := by
    cases i with
    | entry e => simpa [Item.claims, Item.entry?] using hdirect e
    | group g => simp [Item.claims, Item.entry?, List.flatMap_map, hgrouped]
  change (c.allClaims.map _).flatMap _ = _
  rw [List.flatMap_map, allClaims, List.flatMap_map, claims, List.flatMap_assoc, directEntries,
    List.filterMap_eq_flatMap_toList, List.map_flatMap]
  exact congrArg (List.flatMap · c.items) (funext hitem)

/-- The operand of a claim has, once the sources are bound, the value that the claim starts from. -/
lemma value_operand {V : Type} (host : HostSemantics V) {env env' : String → V}
    (hfresh : ∀ name ∈ c.table.bindingNames stem, ∀ t ∈ c.hostTexts, ¬host.Occurs name t)
    (hframe : ∀ name, name ∉ c.table.bindingNames stem → env' name = env name)
    (hbound : ∀ g ∈ c.groups,
      env' (c.table.sourceName stem g) = host.eval env g.source.text)
    {claim : Claim} (hclaim : claim ∈ c.allClaims) :
    (c.table.operand stem claim).value host env' = claim.value host env := by
  obtain ⟨e, group?⟩ := claim
  cases group? with
  | some g =>
    obtain ⟨hg, -⟩ := mem_groups_of_mem_allClaims hclaim rfl
    exact congrArg (host.field · e.name) (hbound g hg)
  | none =>
    have hvalue :
        (c.table.operand stem ⟨e, none⟩).value host env' = host.eval env' e.valueText := by
      cases hvalue : e.value <;> simp [FieldTable.operand, hvalue, Operand.value, Entry.valueText]
    have htext : e.valueText ∈ c.directEntries.map Entry.valueText :=
      List.mem_map_of_mem (mem_directEntries hclaim rfl)
    rw [hvalue]
    refine host.eval_congr _ _ _ fun name hoccurs => hframe name ?_
    intro hname
    exact hfresh name hname _ (List.mem_append_left _ (List.mem_append_right _ htext)) hoccurs

/-- Running a plan gives every target the modified value of its own entry, and evaluates the sources
and then the values once each. -/
theorem run_plan {V : Type} (host : HostSemantics V) (env : String → V) (h : c.groups.Nodup)
    (hfresh : ∀ name ∈ c.table.bindingNames stem, ∀ t ∈ c.hostTexts, ¬host.Occurs name t) :
    ((c.table.plan stem).run host env).fields = c.allClaims.map (fun claim =>
        (claim.target, host.modify claim.entry.modifier claim.target (claim.value host env))) ∧
      ((c.table.plan stem).run host env).evaluated =
        c.groups.map (fun g => g.source.text) ++ c.directEntries.map Entry.valueText := by
  have hnames := map_fst_bindings_plan c stem h
  have hnodup : ((c.table.plan stem).bindings.map Prod.fst).Nodup := by
    rw [hnames]
    exact FieldTable.nodup_bindingNames ..
  have hsources : ∀ name ∈ (c.table.plan stem).bindings.map Prod.fst,
      ∀ b ∈ (c.table.plan stem).bindings, ¬host.Occurs name b.2.text := by
    intro name hname b hb
    rw [hnames] at hname
    obtain ⟨g, hg, rfl⟩ := List.mem_map.mp hb
    have htext : g.source.text ∈ c.groups.map fun g => g.source.text := List.mem_map_of_mem hg
    exact hfresh name hname _ (List.mem_append_left _ (List.mem_append_left _ htext))
  obtain ⟨hframe, hbound, hfields, hevaluated⟩ :=
    RecordState.foldl_bind host (c.table.plan stem).bindings { env } hnodup hsources
  rw [hnames] at hframe
  rw [Plan.run, RecordState.foldl_setField]
  refine ⟨?_, ?_⟩
  · rw [hfields, List.nil_append]
    refine (List.map_map ..).trans (List.map_congr_left fun claim hclaim => ?_)
    have hvalue := value_operand c stem host hfresh hframe
      (fun g hg => hbound _ (List.mem_map_of_mem hg)) hclaim
    exact congrArg (fun v => (claim.target, host.modify claim.entry.modifier claim.target v)) hvalue
  · rw [hevaluated, List.nil_append]
    exact congrArg₂ (· ++ ·) (sourceTexts_plan c stem) (valueTexts_plan c stem)

end Composition

/-- A host whose texts are names, and whose values are the texts that lead to them. -/
def HostSemantics.ofNames : HostSemantics String where
  Occurs name text := name = text
  eval env text := env text
  field owner name := owner ++ "." ++ name
  modify m _ value := m.render ++ value
  eval_congr _ _ text h := h text rfl

/-- Two groups that read fields of the same name, an entry of its own and a base. -/
def Composition.sharedNames : Composition where
  items := [.group ⟨[{ name := "a", rename := some "x" }], ⟨"s", .start⟩, .start⟩,
    .entry { name := "b", modifier := .clone },
    .group ⟨[{ name := "a" }], ⟨"t", .start⟩, .start⟩]
  base := some ⟨"rest", .start⟩

end FieldComposition
