import FieldComposition.Proofs.BindingNames
import FieldComposition.Proofs.ErrorMark
import FieldComposition.Proofs.InvocationReading

/-!
# Errors of expansions

Expanding a text in a known dialect either gives an expansion, or it ends in a syntax error or in a
repeated field. Every such error has a location that points into the text, and its rendering marks
the column of the location (`expand_locates_errors`).
-/

namespace FieldComposition

/-- A syntax error or a repeated field, at a location that points into a text. -/
structure Error.IsLocatedIn (file text : String) (e : Error) : Prop where
  family_eq : e.family = "FieldSyntaxError" ∨ e.family = "DuplicateFieldError"
  location : ∃ l, e.location? = some l ∧ l.PointsInto file text ∧
    ∀ line, l.snippet = some line → line ≠ "" → ∃ mark, e.MarksColumn l line mark

lemma Error.isLocatedIn_of_isIn {file text : String} {e : Error} {position : Position}
    (hposition : position.IsIn text.toList)
    (hfamily : e.family = "FieldSyntaxError" ∨ e.family = "DuplicateFieldError")
    (he : e.location? = some (.inText file text position)) : e.IsLocatedIn file text := by
  obtain ⟨offset, hoffset, rfl⟩ := hposition
  have hpoints := Location.pointsInto_ofOffset file text hoffset
  exact ⟨hfamily, _, he, hpoints, fun line hsnippet hline =>
    Location.exists_mark hpoints he hsnippet hline⟩

lemma ReadError.isLocatedIn_locate {file text : String} {error : ReadError}
    (h : error.IsIn text.toList) : (error.locate file text).IsLocatedIn file text := by
  cases error with
  | fault fault position => exact Error.isLocatedIn_of_isIn h (.inl rfl) rfl
  | repeatedName name first second => exact Error.isLocatedIn_of_isIn h.2 (.inr rfl) rfl

/-- A conflict of two entries that stand in a text is located at the second of them. -/
lemma Conflict.isLocatedIn_locate {file text : String} {c : Composition} {conflict : Conflict}
    (hc : c.IsReadFrom text.toList) (h : c.resolve = .error conflict) :
    (conflict.locate file (some text)).IsLocatedIn file text := by
  obtain ⟨before, between, after, hclaims, -, -⟩ := Composition.isEarliestIn_of_resolve h
  have hmem : conflict.second.entry ∈ c.entries := by
    rw [← Composition.map_entry_allClaims, hclaims]
    simp
  have hposition := (hc.entries _ hmem).position_isOn
  have htext : text ≠ "" := by
    rintro rfl
    obtain ⟨offset, hoffset, -⟩ := hposition
    exact absurd hoffset (by simp)
  have htext : (some text).filter (· ≠ "") = some text := by simpa using htext
  refine Error.isLocatedIn_of_isIn hposition.isIn (.inr rfl) ?_
  rw [locate, htext]
  rfl

lemma chooseDialect_map_name (settings : Settings) (dialect? : Option Dialect) :
    chooseDialect settings (dialect?.map Dialect.name) =
      .ok (dialect?.getD settings.dialect) := by
  cases dialect? with
  | none => rfl
  | some d => cases d <;> rfl

lemma Backend.find_name (d : Dialect) (entryPoint : EntryPoint) :
    find d.name entryPoint.name = .ok ⟨d, entryPoint⟩ := by
  cases d <;> cases entryPoint <;> rfl

namespace FieldTable

lemma isSome_bindingOf {t : FieldTable} {g : Group} (h : g ∈ t.groups) (stem : String) :
    (t.bindingOf stem g).isSome := by
  have hindex := List.idxOf_lt_length_of_mem h
  rw [← length_bindingNames t stem] at hindex
  rw [bindingOf, List.getElem?_eq_getElem hindex]
  rfl

end FieldTable

lemma Invocation.mem_groups_of_table {i : Invocation} {t : FieldTable} (h : i.table = .ok t)
    {claim : Claim} (hclaim : claim ∈ t.claims) {g : Group} (hg : claim.group = some g) :
    g ∈ t.groups := by
  unfold table at h
  cases hcomposition : i.composition? with
  | none =>
    rw [hcomposition] at h
    obtain rfl := Except.ok.inj h
    exact absurd hclaim (by simp)
  | some c =>
    rw [hcomposition] at h
    obtain ⟨-, rfl⟩ := Composition.resolve_eq_ok_iff.mp h
    exact (Composition.mem_groups_of_mem_allClaims hclaim hg).1

lemma Invocation.exists_resolve_of_table {i : Invocation} {conflict : Conflict}
    (h : i.table = .error conflict) :
    ∃ c, i.composition? = some c ∧ c.resolve = .error conflict := by
  unfold table at h
  cases hcomposition : i.composition? with
  | none =>
    rw [hcomposition] at h
    exact absurd h (by simp)
  | some c =>
    rw [hcomposition] at h
    exact ⟨c, rfl, h⟩

/-- Expanding a text is reading an invocation of the entry point, and then expanding that. -/
lemma expand_eq (entryPoint : EntryPoint) (dialect? : Option Dialect) (settings : Settings)
    (file text : String) :
    expand entryPoint.name text (dialect?.map Dialect.name) settings file =
      match Invocation.ofText entryPoint (.dialect (dialect?.getD settings.dialect)) text with
      | .error error => .error (error.locate file text)
      | .ok i => (⟨dialect?.getD settings.dialect, entryPoint⟩ : Backend).expand settings file
          (some text) i := by
  simp only [expand, readInvocation, chooseDialect_map_name, bind, Except.bind, Backend.find_name]
  cases Invocation.ofText entryPoint (.dialect (dialect?.getD settings.dialect)) text <;> rfl

/-- An expansion is the code of the invocation that the text is read as, laid out. -/
lemma expand_eq_ok_iff {entryPoint : EntryPoint} {dialect? : Option Dialect}
    {settings : Settings} {file text : String} {expansion : Expansion} :
    expand entryPoint.name text (dialect?.map Dialect.name) settings file = .ok expansion ↔
      ∃ i t,
        Invocation.ofText entryPoint (.dialect (dialect?.getD settings.dialect)) text = .ok i ∧
        i.table = .ok t ∧
        let backend : Backend := ⟨dialect?.getD settings.dialect, entryPoint⟩
        expansion = (backend.draft settings i t).layout settings.tab entryPoint
          (dialect?.getD settings.dialect).name := by
  have hspec := Invocation.ofText_spec entryPoint (.dialect (dialect?.getD settings.dialect)) text
  rw [expand_eq]
  cases hread : Invocation.ofText entryPoint (.dialect (dialect?.getD settings.dialect)) text with
  | error error => simp
  | ok i =>
    rw [hread] at hspec
    dsimp only
    rw [Backend.expand, if_neg (not_not_intro hspec.1)]
    constructor
    · intro h
      cases htable : i.table with
      | error conflict =>
        rw [htable] at h
        exact absurd h (by simp)
      | ok t =>
        rw [htable] at h
        exact ⟨i, t, rfl, htable, (Except.ok.inj h).symm⟩
    · rintro ⟨i', t, hi', htable, rfl⟩
      obtain rfl := Except.ok.inj hi'
      rw [htable]

/-- Expanding an invocation in a dialect ends well, or in a syntax error or a repeated field that is
located in the text. When it ends well, the invocation was read with modifiers that pass their
check, its targets are resolved, and every claim of a group finds the name that the source of the
group is bound to. -/
theorem expand_locates_errors (entryPoint : EntryPoint) (dialect? : Option Dialect)
    (settings : Settings) (file text : String) :
    match expand entryPoint.name text (dialect?.map Dialect.name) settings file with
    | .ok expansion =>
      expansion.entryPoint = entryPoint ∧
        expansion.dialect = (dialect?.getD settings.dialect).name ∧
        ∃ i t,
          Invocation.ofText entryPoint (.dialect (dialect?.getD settings.dialect)) text = .ok i ∧
          i.IsReadFrom text.toList ∧ i.table = .ok t ∧
          ∀ claim ∈ t.claims, ∀ g ∈ claim.group, (t.bindingOf settings.bindingStem g).isSome
    | .error e => e.IsLocatedIn file text := by
  have hread := Invocation.ofText_spec entryPoint (.dialect (dialect?.getD settings.dialect)) text
  rw [expand_eq]
  cases hresult : Invocation.ofText entryPoint (.dialect (dialect?.getD settings.dialect)) text with
  | error error =>
    rw [hresult] at hread
    exact ReadError.isLocatedIn_locate hread
  | ok i =>
    rw [hresult] at hread
    obtain ⟨hform, hi⟩ := hread
    dsimp only
    rw [Backend.expand, if_neg (not_not_intro hform)]
    cases htable : i.table with
    | error conflict =>
      obtain ⟨c, hc, hresolve⟩ := Invocation.exists_resolve_of_table htable
      exact Conflict.isLocatedIn_locate (hi.composition c hc) hresolve
    | ok t =>
      dsimp only
      rw [Draft.layout_eq]
      refine ⟨rfl, rfl, i, t, rfl, hi, htable, fun claim hclaim g hg => ?_⟩
      exact FieldTable.isSome_bindingOf (Invocation.mem_groups_of_table htable hclaim hg) _

/-- A caret in the line that is shown: it is the first of the rendering, and does not stand below
the column of the error. -/
theorem indexInLine_render_caretOperator :
    let text := "P \x7b a: x ^ y, * \x7d"
    ∃ e l, expand "spread" text (some "python") {} "<input>" = .error e ∧
      e.location? = some l ∧ l.snippet = some text ∧ l.position.column = 15 ∧
      Text.indexInLine '^' e.render = 16 ∧
      l.gutter.length + (l.position.column - 1).toNat = 21 := by
  intro text
  exact ⟨.malformed (.unknownModifier "*") ⟨"<input>", ⟨1, 15⟩, some text⟩,
    ⟨"<input>", ⟨1, 15⟩, some text⟩, by decide +kernel, rfl, rfl, rfl, by decide +kernel,
    by decide +kernel⟩

end FieldComposition
