import FieldComposition.Proofs.ExpansionErrors
import FieldComposition.Proofs.LineRun
import FieldComposition.Proofs.RecordRun
import FieldComposition.Proofs.WellFormedInvocation
import FieldComposition.StandIn

/-!
# Names in the code of an assertion

The python code of an assertion binds the sources of its groups, and then three names of its own
with the same stem. These names differ unless a group has a single entry that is called like one of
the three; the expected record reads every group from its own source unless a group has `actual` as
its only entry, and such a group is read from the actual value instead
(`expand_assigns_names`).
-/

namespace FieldComposition

namespace FieldTable

variable {t : FieldTable} {stem word : String}

lemma eq_singleton_of_intercalate_eq {names : List String} (hword : '_' ∉ word.toList)
    (hne : word ≠ "") (h : "_".intercalate names = word) : names = [word] := by
  cases names with
  | nil => exact absurd h.symm hne
  | cons name names =>
    cases names with
    | nil => rw [← h, String.intercalate_singleton]
    | cons next names =>
      refine absurd ?_ hword
      rw [← h, String.intercalate_cons_cons]
      simp

/-- A word without the separator stands behind the stem only as the name of a group with one
entry: a suffix would bring a separator with it. -/
lemma map_name_eq_singleton {group : Group} {i : ℕ} (hword : '_' ∉ word.toList) (hne : word ≠ "")
    (hgroup : t.groups[i]? = some group) (h : (t.bindingNames stem)[i]? = some (stem ++ word)) :
    group.entries.map Entry.name = [word] := by
  obtain ⟨n, hfresh, -⟩ := exists_freshen_eq ("_" ++ toString i) ((t.bindingNames stem).take i)
    (group.bindingName stem)
  rw [getElem?_bindingNames hgroup, hfresh] at h
  have heq := congrArg String.toList (Option.some.inj h)
  rw [suffixed, Group.bindingName, String.append_assoc, String.toList_append,
    String.toList_append, String.toList_append, List.append_cancel_left_eq] at heq
  apply eq_singleton_of_intercalate_eq hword hne
  cases n with
  | zero => simpa [String.ext_iff] using heq
  | succ n =>
    refine absurd ?_ hword
    rw [← heq]
    simp [List.replicate_succ, String.join_cons]

/-- The name of the only entry of a group is taken behind the stem, by this group or by one before
it. -/
lemma append_mem_bindingNames {group : Group} (hgroup : group ∈ t.groups)
    (hnames : group.entries.map Entry.name = [word]) : stem ++ word ∈ t.bindingNames stem := by
  obtain ⟨i, hi⟩ := List.mem_iff_getElem?.mp hgroup
  have hnatural : group.bindingName stem = stem ++ word := by
    rw [Group.bindingName, hnames, String.intercalate_singleton]
  obtain ⟨n, hfresh, htaken⟩ := exists_freshen_eq ("_" ++ toString i)
    ((t.bindingNames stem).take i) (group.bindingName stem)
  have hname := getElem?_bindingNames hi stem
  rw [hfresh, hnatural] at hname
  rw [hnatural] at htaken
  cases n with
  | zero =>
    rw [suffixed_zero] at hname
    exact List.mem_of_getElem? hname
  | succ n =>
    have hmem := htaken 0 (Nat.succ_pos n)
    rw [suffixed_zero] at hmem
    exact List.mem_of_mem_take hmem

lemma append_mem_bindingNames_iff (hword : '_' ∉ word.toList) (hne : word ≠ "") :
    stem ++ word ∈ t.bindingNames stem ↔
      ∃ group ∈ t.groups, group.entries.map Entry.name = [word] := by
  constructor
  · intro hmem
    obtain ⟨i, hi⟩ := List.mem_iff_getElem?.mp hmem
    have hlt : i < t.groups.length := by
      rw [← length_bindingNames t stem]
      exact (List.getElem?_eq_some_iff.mp hi).1
    exact ⟨t.groups[i], List.getElem_mem hlt,
      map_name_eq_singleton hword hne (List.getElem?_eq_getElem hlt) hi⟩
  · rintro ⟨group, hgroup, hnames⟩
    exact append_mem_bindingNames hgroup hnames

/-- The groups that are bound to a word without the separator have one entry, of that name. -/
lemma map_name_of_sourceName {group : Group} (hnodup : t.groups.Nodup) (hword : '_' ∉ word.toList)
    (hne : word ≠ "") (hgroup : group ∈ t.groups) (h : t.sourceName stem group = stem ++ word) :
    group.entries.map Entry.name = [word] := by
  obtain ⟨i, hi⟩ := List.mem_iff_getElem?.mp hgroup
  have hname : (t.bindingNames stem)[i]? = some (stem ++ word) := by
    rw [← map_sourceName hnodup, List.getElem?_map, hi, Option.map_some, h]
  exact map_name_eq_singleton hword hne hi hname

lemma exists_sourceName_eq {group : Group} (hnodup : t.groups.Nodup) (hgroup : group ∈ t.groups)
    (hnames : group.entries.map Entry.name = [word]) :
    ∃ g ∈ t.groups, t.sourceName stem g = stem ++ word := by
  have hmem : stem ++ word ∈ t.bindingNames stem := append_mem_bindingNames hgroup hnames
  rw [← map_sourceName hnodup] at hmem
  exact List.mem_map.mp hmem

end FieldTable

namespace Python

/-- The words that an assertion puts behind the stem for its own names. -/
def sideWords : List String :=
  ["actual", "expected", "checks"]

/-- The lines in front of the one that binds the expected value. -/
def linesBeforeExpected (settings : Settings) (a : Assertion) (t : FieldTable) : List Line :=
  (expectedValue settings a t).1.blocks.flatten ++
    [.assign (settings.bindingStem ++ "actual") (.host a.actual.text)]

variable {settings : Settings} {a : Assertion} {t : FieldTable}

lemma fixed_of_mem_anonType {line : Line} (h : line ∈ anonType settings t) :
    line.assigned? = none ∧ ∀ tab, line.laidOut tab = line := by
  rcases List.mem_append.mp h with h | h
  · obtain ⟨name, -, rfl⟩ := List.mem_map.mp h
    exact ⟨rfl, fun _ => rfl⟩
  · simp only [List.mem_cons, List.not_mem_nil, or_false] at h
    rcases h with rfl | rfl | rfl <;> exact ⟨rfl, fun _ => rfl⟩

/-- The lines that bind the sources of the groups. -/
def sourceLines (settings : Settings) (t : FieldTable) : List Line :=
  t.groups.map fun g => .assign (t.sourceName settings.bindingStem g) (.host g.source.text)

/-- The definition of a class may come first, then the sources are bound and the actual value. -/
lemma exists_linesBeforeExpected (settings : Settings)
    (ht : (Invocation.assertion a).table = .ok t) :
    ∃ definition, linesBeforeExpected settings a t = definition ++ (sourceLines settings t ++
        [.assign (settings.bindingStem ++ "actual") (.host a.actual.text)]) ∧
      ∀ line ∈ definition, line.assigned? = none ∧ ∀ tab, line.laidOut tab = line := by
  rw [linesBeforeExpected, expectedValue]
  cases hexpected : a.expected with
  | value expression fields =>
    rw [Invocation.table, Invocation.composition?, hexpected] at ht
    obtain rfl := Except.ok.inj ht
    exact ⟨[], rfl, by simp⟩
  | record c =>
    refine ⟨anonType settings t, ?_, fun line => fixed_of_mem_anonType⟩
    have hsources : (bindingBlocks (t.plan settings.bindingStem)).flatten =
        sourceLines settings t := by
      rw [bindingBlocks, FieldTable.plan, List.map_map, sourceLines]
      exact List.map_eq_flatMap.symm
    change (anonType settings t :: bindingBlocks _).flatten ++ _ = _
    rw [List.flatten_cons, hsources, List.append_assoc]

/-- The lines of an assertion in order. -/
lemma flatten_blocks_assertion (settings : Settings) (a : Assertion) (t : FieldTable) :
    let stem := settings.bindingStem
    (assertion settings a t).blocks.flatten = linesBeforeExpected settings a t ++
      (.assign (stem ++ "expected") (expectedValue settings a t).2 ::
        .assign (stem ++ "checks") (.fieldChecks (stem ++ "actual") (stem ++ "expected")) ::
        (a.fields.map (.check (stem ++ "checks") (stem ++ "actual") (stem ++ "expected")) ++
          [.report (stem ++ "checks") a.formatArgs])) := by
  simp [assertion, linesBeforeExpected]

lemma filterMap_assigned_sourceLines (hnodup : t.groups.Nodup) :
    (sourceLines settings t).filterMap Line.assigned? = t.bindingNames settings.bindingStem := by
  rw [← FieldTable.map_sourceName hnodup, sourceLines, List.filterMap_map]
  change t.groups.filterMap (some ∘ t.sourceName settings.bindingStem) = _
  rw [List.filterMap_eq_map]

/-- The code of an assertion assigns the names of the sources and then its own. -/
lemma assigned_assertion (ht : (Invocation.assertion a).table = .ok t) (hnodup : t.groups.Nodup) :
    (assertion settings a t).assigned = t.bindingNames settings.bindingStem ++
      sideWords.map (settings.bindingStem ++ ·) := by
  obtain ⟨definition, hlines, hdefinition⟩ := exists_linesBeforeExpected settings ht
  have hnone : definition.filterMap Line.assigned? = [] :=
    List.filterMap_eq_nil_iff.mpr fun line hline => (hdefinition line hline).1
  have hchecks : (a.fields.map (Line.check (settings.bindingStem ++ "checks")
      (settings.bindingStem ++ "actual") (settings.bindingStem ++ "expected"))).filterMap
        Line.assigned? = [] := by
    rw [List.filterMap_map]
    exact List.filterMap_eq_nil_iff.mpr fun _ _ => rfl
  rw [Script.assigned, flatten_blocks_assertion, hlines]
  simp only [List.filterMap_append, List.filterMap_cons, List.filterMap_nil, Line.assigned?, hnone,
    hchecks, filterMap_assigned_sourceLines hnodup, List.nil_append, List.append_assoc,
    List.cons_append, sideWords, List.map_cons, List.map_nil]

/-- The names differ unless a group has one entry that is called like one of the own names. -/
lemma nodup_assigned_iff (ht : (Invocation.assertion a).table = .ok t) (hnodup : t.groups.Nodup) :
    (assertion settings a t).assigned.Nodup ↔
      ∀ g ∈ t.groups, ∀ word ∈ sideWords, g.entries.map Entry.name ≠ [word] := by
  have hside : (sideWords.map (settings.bindingStem ++ ·)).Nodup := by
    refine List.Nodup.map (fun word other h => ?_) (by decide)
    simpa using h
  have hmem {word : String} (hword : word ∈ sideWords) :
      settings.bindingStem ++ word ∈ t.bindingNames settings.bindingStem ↔
        ∃ g ∈ t.groups, g.entries.map Entry.name = [word] := by
    apply FieldTable.append_mem_bindingNames_iff
    · revert word
      decide
    · revert word
      decide
  rw [assigned_assertion ht hnodup, List.nodup_append]
  constructor
  · rintro ⟨-, -, hdisjoint⟩ g hg word hword hnames
    exact hdisjoint _ ((hmem hword).mpr ⟨g, hg, hnames⟩) _ (List.mem_map_of_mem hword) rfl
  · intro h
    refine ⟨FieldTable.nodup_bindingNames .., hside, ?_⟩
    rintro name hname _ hother rfl
    obtain ⟨word, hword, rfl⟩ := List.mem_map.mp hother
    obtain ⟨g, hg, hnames⟩ := (hmem hword).mp hname
    exact h g hg word hword hnames

/-- As the code is laid out, only the expected value changes. -/
lemma exists_flatten_blocks_laidOut (ht : (Invocation.assertion a).table = .ok t) :
    ∃ after, ((assertion settings a t).laidOut settings.tab).blocks.flatten =
      linesBeforeExpected settings a t ++ .assign (settings.bindingStem ++ "expected")
        ((expectedValue settings a t).2.laidOut settings.tab) :: after := by
  obtain ⟨definition, hlines, hdefinition⟩ := exists_linesBeforeExpected settings ht
  have hbefore : (linesBeforeExpected settings a t).map (·.laidOut settings.tab) =
      linesBeforeExpected settings a t := by
    refine (List.map_congr_left fun line hline => ?_).trans (List.map_id _)
    rw [hlines, List.mem_append, List.mem_append, List.mem_singleton] at hline
    rcases hline with hline | hline | rfl
    · exact (hdefinition line hline).2 _
    · obtain ⟨g, -, rfl⟩ := List.mem_map.mp hline
      rfl
    · rfl
  change ∃ after,
    ((assertion settings a t).blocks.map (List.map (·.laidOut settings.tab))).flatten = _
  rw [← List.map_flatten, flatten_blocks_assertion, List.map_append, hbefore, List.map_cons]
  exact ⟨_, rfl⟩

/-- No group reads its fields from what a later line assigns, where its name is not the one of the
actual value and names that differ have different normal forms. -/
lemma readsField_source (ht : (Invocation.assertion a).table = .ok t) (hnodup : t.groups.Nodup)
    (hnormal : ∀ name ∈ t.bindingNames settings.bindingStem ++ [settings.bindingStem ++ "actual"],
      ∀ other ∈ t.bindingNames settings.bindingStem ++ [settings.bindingStem ++ "actual"],
        Text.normalize name = Text.normalize other → name = other)
    {g : Group} (hg : g ∈ t.groups)
    (hne : t.sourceName settings.bindingStem g ≠ settings.bindingStem ++ "actual") (name : String) :
    ReadsField settings.runtimeAlias (linesBeforeExpected settings a t)
      (.field (t.sourceName settings.bindingStem g) name) g.source.text name := by
  obtain ⟨definition, hlines, -⟩ := exists_linesBeforeExpected settings ht
  obtain ⟨before, after, hgroups⟩ := List.append_of_mem hg
  have hdistinct := FieldTable.nodup_bindingNames t settings.bindingStem
  rw [← FieldTable.map_sourceName hnodup] at hnormal hdistinct
  rw [hlines, sourceLines, hgroups, List.map_append, List.map_cons, List.append_assoc,
    ← List.append_assoc, List.cons_append]
  refine readsField_append fun other hother heq => ?_
  -- What comes later are the names of the groups behind this one, and that of the actual value.
  have hlater : other ∈ after.map (t.sourceName settings.bindingStem) ++
      [settings.bindingStem ++ "actual"] := by
    simpa [List.filterMap_append, List.filterMap_map, Line.rebound?, Function.comp_def] using hother
  rw [hgroups, List.map_append, List.map_cons] at hnormal hdistinct
  obtain rfl := hnormal other (by
    rcases List.mem_append.mp hlater with h | h
    · exact List.mem_append_left _ (List.mem_append_right _ (List.mem_cons_of_mem _ h))
    · exact List.mem_append_right _ h) (t.sourceName settings.bindingStem g) (by simp) heq
  rcases List.mem_append.mp hlater with h | h
  · rw [List.nodup_append, List.nodup_cons] at hdistinct
    exact hdistinct.2.1.1 h
  · exact hne (List.mem_singleton.mp h)

/-- A group whose source has the name of the actual value reads its fields from this value. -/
lemma readsField_actual (ht : (Invocation.assertion a).table = .ok t) (name : String) :
    ReadsField settings.runtimeAlias (linesBeforeExpected settings a t)
      (.field (settings.bindingStem ++ "actual") name) a.actual.text name := by
  obtain ⟨definition, hlines, -⟩ := exists_linesBeforeExpected settings ht
  rw [hlines, ← List.append_assoc]
  exact readsField_append (by simp)

end Python

lemma Composition.exists_claim_of_mem_groups {c : Composition} {g : Group} (hg : g ∈ c.groups)
    {e : Entry} (he : e ∈ g.entries) : ⟨e, some g⟩ ∈ c.allClaims := by
  obtain ⟨i, hi, hgroup⟩ := List.mem_filterMap.mp hg
  cases i with
  | entry e => exact absurd hgroup (by simp [Item.group?])
  | group g' =>
    obtain rfl := Option.some.inj hgroup
    exact List.mem_map.mpr
      ⟨(e, some g'), List.mem_flatMap.mpr ⟨_, hi, List.mem_map_of_mem he⟩, rfl⟩

/-- The groups of an assertion differ, and each of their entries has a claim. -/
lemma Assertion.IsWellFormed.groups {a : Assertion} (h : a.IsWellFormed) {t : FieldTable}
    (ht : (Invocation.assertion a).table = .ok t) :
    t.groups.Nodup ∧ ∀ g ∈ t.groups, ∀ e ∈ g.entries, ⟨e, some g⟩ ∈ t.claims := by
  have hexpected := h.expected
  rw [Invocation.table, Invocation.composition?] at ht
  cases hside : a.expected with
  | value value fields =>
    rw [hside] at ht
    obtain rfl := Except.ok.inj ht
    exact ⟨List.nodup_nil, by simp⟩
  | record c =>
    rw [hside] at ht hexpected
    obtain ⟨htargets, rfl⟩ := Composition.resolve_eq_ok_iff.mp ht
    refine ⟨Composition.nodup_groups htargets fun g hg => ?_, fun g hg e he =>
      Composition.exists_claim_of_mem_groups hg he⟩
    obtain ⟨i, hi, hgroup⟩ := List.mem_filterMap.mp hg
    have hwell := hexpected.2.isWellFormed_items i hi
    cases i with
    | entry e => exact absurd hgroup (by simp [Item.group?])
    | group g' =>
      obtain rfl := Option.some.inj hgroup
      exact hwell.entries_ne_nil

/-- The code of an assertion assigns the names of its groups and then three of its own. They differ
exactly if no group has one entry that is called like one of these; the record reads the fields of
every group from its own source if no group has `actual` as its only entry, and otherwise it reads
such a group from the actual value. -/
theorem expand_assigns_names {dialect? : Option Dialect} {settings : Settings} {file text : String}
    {expansion : Expansion} (hdialect : dialect?.getD settings.dialect = .python)
    (h : expand EntryPoint.assertFieldsEq.name text (dialect?.map Dialect.name) settings file =
      .ok expansion) :
    ∃ a t, Invocation.ofText .assertFieldsEq (.dialect .python) text = .ok (.assertion a) ∧
      (Invocation.assertion a).table = .ok t ∧
      let stem := settings.bindingStem
      let script := Python.assertion settings a t
      let lines := Python.linesBeforeExpected settings a t
      expansion =
        (script.draft settings.runtimeAlias).layout settings.tab .assertFieldsEq "python" ∧
      script.assigned = t.bindingNames stem ++ Python.sideWords.map (stem ++ ·) ∧
      (script.assigned.Nodup ↔
        ∀ g ∈ t.groups, ∀ word ∈ Python.sideWords, g.entries.map Entry.name ≠ [word]) ∧
      (∃ after, (script.laidOut settings.tab).blocks.flatten = lines ++
        .assign (stem ++ "expected") ((Python.expectedValue settings a t).2.laidOut settings.tab) ::
          after) ∧
      ((∀ name ∈ t.bindingNames stem ++ [stem ++ "actual"],
          ∀ other ∈ t.bindingNames stem ++ [stem ++ "actual"],
            Text.normalize name = Text.normalize other → name = other) →
        (∀ g ∈ t.groups, g.entries.map Entry.name ≠ ["actual"]) →
        ∀ claim ∈ t.claims, ∀ g ∈ claim.group, Python.ReadsField settings.runtimeAlias lines
          (t.operand stem claim) g.source.text claim.entry.name) ∧
      ((∃ g ∈ t.groups, g.entries.map Entry.name = ["actual"]) →
        ∃ claim ∈ t.claims, ∃ g ∈ claim.group, g.entries.map Entry.name = ["actual"] ∧
          Python.ReadsField settings.runtimeAlias lines (t.operand stem claim) a.actual.text
            claim.entry.name) := by
  obtain ⟨i, t, hread, ht, rfl⟩ := expand_eq_ok_iff.mp h
  rw [hdialect] at hread ⊢
  have hwell := Invocation.isWellFormed_of_ofText hread
  cases i with
  | assertion a =>
    obtain ⟨hnodup, hclaims⟩ := hwell.of_assertion.groups ht
    refine ⟨a, t, hread, ht, rfl, Python.assigned_assertion ht hnodup,
      Python.nodup_assigned_iff ht hnodup, Python.exists_flatten_blocks_laidOut ht, ?_, ?_⟩
    · intro hnormal hother claim hclaim g hg
      have hmem := Invocation.mem_groups_of_table ht hclaim hg
      have hne : t.sourceName settings.bindingStem g ≠ settings.bindingStem ++ "actual" :=
        fun heq => hother g hmem
          (FieldTable.map_name_of_sourceName hnodup (by decide) (by decide) hmem heq)
      have hoperand : t.operand settings.bindingStem claim =
          .field (t.sourceName settings.bindingStem g) claim.entry.name := by
        rw [FieldTable.operand, Option.mem_def.mp hg]
      rw [hoperand]
      exact Python.readsField_source ht hnodup hnormal hmem hne _
    · rintro ⟨g, hg, hnames⟩
      obtain ⟨g', hg', hname⟩ : ∃ g' ∈ t.groups,
          t.sourceName settings.bindingStem g' = settings.bindingStem ++ "actual" :=
        FieldTable.exists_sourceName_eq hnodup hg hnames
      have hnames' := FieldTable.map_name_of_sourceName hnodup (by decide) (by decide) hg' hname
      obtain ⟨e, he, -⟩ := List.map_eq_singleton_iff.mp hnames'
      refine ⟨⟨e, some g'⟩, hclaims g' hg' e (by simp [he]), g', rfl, hnames', ?_⟩
      rw [FieldTable.operand]
      dsimp only
      rw [hname]
      exact Python.readsField_actual ht _
  | _ => exact hwell.elim

/-- The name `__expected` is assigned twice, but the group has read its source by then. -/
theorem expand_assigns_names_expected :
    let text := "x, \x7b \x7b expected \x7d in y, \x7b b \x7d in z \x7d"
    ∃ a t, Invocation.ofText .assertFieldsEq (.dialect .python) text = .ok (.assertion a) ∧
      (Invocation.assertion a).table = .ok t ∧
      (Python.assertion {} a t).assigned =
        ["__expected", "__b", "__actual", "__expected", "__checks"] ∧
      t.targets = ["expected", "b"] ∧
      ∀ claim ∈ t.claims, ∀ g ∈ claim.group, Python.ReadsField "_fs"
        (Python.linesBeforeExpected {} a t) (t.operand "__" claim) g.source.text
        claim.entry.name := by
  intro text
  let c : Composition := { items := [
    .group ⟨[{ name := "expected", position := ⟨1, 8⟩ }], ⟨"y", ⟨1, 22⟩⟩, ⟨1, 6⟩⟩,
    .group ⟨[{ name := "b", position := ⟨1, 27⟩ }], ⟨"z", ⟨1, 34⟩⟩, ⟨1, 25⟩⟩] }
  have hread : Invocation.ofText .assertFieldsEq (.dialect .python) text =
      .ok (.assertion ⟨⟨"x", ⟨1, 1⟩⟩, .record c, []⟩) := by
    decide +kernel
  have hexpand : expand EntryPoint.assertFieldsEq.name text (Option.map Dialect.name none) {}
      "<input>" = .ok _ :=
    expand_eq_ok_iff.mpr ⟨_, _, hread, rfl, rfl⟩
  obtain ⟨a, t, hread', ht, -, hassigned, -, -, hreads, -⟩ :=
    expand_assigns_names rfl hexpand
  rw [hread] at hread'
  obtain rfl := Invocation.assertion.inj (Except.ok.inj hread')
  change c.resolve = .ok t at ht
  obtain ⟨-, rfl⟩ := Composition.resolve_eq_ok_iff.mp ht
  have hnames : c.table.bindingNames ({} : Settings).bindingStem = ["__expected", "__b"] := by
    decide +kernel
  rw [hnames] at hassigned hreads
  exact ⟨_, _, hread, ht, hassigned, rfl, hreads (by decide +kernel) (by decide)⟩

/-- The group is read from the actual value, so that records that differ pass for equal. -/
theorem not_distinct_actual :
    let text := "x, \x7b \x7b actual \x7d in y \x7d"
    let values := [("x", Value.record "P" [("actual", .int 1)]),
      ("y", .record "P" [("actual", .int 2)])]
    ∃ a t, Invocation.ofText .assertFieldsEq (.dialect .python) text = .ok (.assertion a) ∧
      (Invocation.assertion a).table = .ok t ∧
      (Python.assertion {} a t).assigned = ["__actual", "__actual", "__expected", "__checks"] ∧
      ¬(Python.assertion {} a t).assigned.Nodup ∧
      (evaluate StandIn.libraries "assert_fields_eq" text none {} "<input>" values []).toBool := by
  intro text values
  let c : Composition := { items := [
    .group ⟨[{ name := "actual", position := ⟨1, 8⟩ }], ⟨"y", ⟨1, 20⟩⟩, ⟨1, 6⟩⟩] }
  have hread : Invocation.ofText .assertFieldsEq (.dialect .python) text =
      .ok (.assertion ⟨⟨"x", ⟨1, 1⟩⟩, .record c, []⟩) := by
    decide +kernel
  have hassigned : (Python.assertion {} ⟨⟨"x", ⟨1, 1⟩⟩, .record c, []⟩ c.table).assigned =
      ["__actual", "__actual", "__expected", "__checks"] := by
    decide +kernel
  refine ⟨_, c.table, hread, rfl, hassigned, ?_, by decide +kernel⟩
  rw [hassigned]
  decide

end FieldComposition
