import FieldComposition.Proofs.DocumentReading
import FieldComposition.Proofs.ValuePaths

/-!
# The tables of a document

A statement changes one table of a document, and what is new in the document lies on the way to that
table or in it (`Makes`, `Draft.exists_of_add`). Tables and arrays stay what they are, so after any
number of statements the tables are those that were there and those that the statements name, where
no array is on the way (`Draft.hasTable_addAll_iff`).
-/

namespace FieldComposition.Toml

namespace Value

/-- Wherever a table or an array stands in a value, another value has one too. -/
structure Grows (v v' : Value) : Prop where
  table : ∀ path, v.HasTable path → v'.HasTable path
  array : ∀ path, v.HasArray path → v'.HasArray path

lemma Grows.refl (v : Value) : Grows v v :=
  ⟨fun _ h => h, fun _ h => h⟩

lemma Grows.trans {u v w : Value} (huv : Grows u v) (hvw : Grows v w) : Grows u w :=
  ⟨fun path h => hvw.table path (huv.table path h), fun path h => hvw.array path (huv.array path h)⟩

lemma not_hasTable_array (items : List Value) (path : List String) :
    ¬(array items).HasTable path :=
  fun h => absurd h.isTable Bool.false_ne_true

lemma grows_array (items items' : List Value) : Grows (array items) (array items') where
  table path h := absurd h (not_hasTable_array items path)
  array path h := by
    cases path with
    | nil => exact ⟨items', rfl⟩
    | cons key path =>
      obtain ⟨_, h⟩ := h
      cases h

/-- A table grows with the values of its keys. -/
lemma grows_table {t t' : Table}
    (h : ∀ key v, t.get? key = some v → ∃ v', t'.get? key = some v' ∧ Grows v v') :
    Grows (table t) (table t') where
  table path hpath := by
    cases path with
    | nil => exact hasTable_nil t'
    | cons key path =>
      obtain ⟨v, hv, hpath⟩ := hasTable_cons.mp hpath
      obtain ⟨v', hv', hgrows⟩ := h key v hv
      exact hasTable_cons.mpr ⟨v', hv', hgrows.table path hpath⟩
  array path hpath := by
    cases path with
    | nil =>
      obtain ⟨_, hpath⟩ := hpath
      cases hpath
    | cons key path =>
      obtain ⟨v, hv, hpath⟩ := hasArray_cons.mp hpath
      obtain ⟨v', hv', hgrows⟩ := h key v hv
      exact hasArray_cons.mpr ⟨v', hv', hgrows.array path hpath⟩

lemma grows_put {t : Table} {key : String} {v : Value}
    (h : ∀ old, t.get? key = some old → Grows old v) : Grows (table t) (table (t.put key v)) := by
  refine grows_table fun other old hold => ?_
  rw [Table.get?_put]
  by_cases hother : key = other
  · subst hother
    exact ⟨v, if_pos rfl, h old hold⟩
  · exact ⟨old, by rw [if_neg hother, hold], Grows.refl old⟩

lemma hasTable_put_self {t : Table} {key : String} {v : Value} {path : List String} :
    (table (t.put key v)).HasTable (key :: path) ↔ v.HasTable path := by
  simp [hasTable_cons, Table.get?_put]

lemma hasTable_put_of_ne {t : Table} {key other : String} {v : Value} {path : List String}
    (h : key ≠ other) :
    (table (t.put key v)).HasTable (other :: path) ↔ (table t).HasTable (other :: path) := by
  simp [hasTable_cons, Table.get?_put, h]

lemma hasArray_put_self {t : Table} {key : String} {v : Value} {path : List String} :
    (table (t.put key v)).HasArray (key :: path) ↔ v.HasArray path := by
  simp [hasArray_cons, Table.get?_put]

lemma hasTable_empty_iff {path : List String} : (table []).HasTable path ↔ path = [] := by
  cases path with
  | nil => exact iff_of_true (hasTable_nil []) rfl
  | cons key path => simp [hasTable_cons, Table.get?]

lemma grows_append {t : Table} {key : String} {v : Value} :
    Grows (table t) (table (t ++ [(key, v)])) := by
  refine grows_table fun other old hold => ⟨old, ?_, Grows.refl old⟩
  rw [Table.get?_append_singleton, hold]
  rfl

end Value

open Value

section AlterAt

variable {intoArrays : Bool} {change : Table → Option Table} {t t' : Table}

/-- What the first step of a change below a table does: it changes a table that a key has or that
is made for it, or an array in which a table is changed. -/
lemma cases_of_alterAt_cons {key : String} {way : List String}
    (h : alterAt intoArrays change (key :: way) t = some t') :
    (∃ inner inner', (t.get? key = some (.table inner) ∨ t.get? key = none ∧ inner = []) ∧
      alterAt intoArrays change way inner = some inner' ∧ t' = t.put key (.table inner')) ∨
    ∃ items items', t.get? key = some (.array items) ∧ t' = t.put key (.array items') := by
  rw [alterAt] at h
  split at h
  · rename_i hkey
    obtain ⟨inner', halter, rfl⟩ := Option.map_eq_some_iff.mp h
    exact .inl ⟨[], inner', .inr ⟨hkey, rfl⟩, halter, rfl⟩
  · rename_i inner hkey
    obtain ⟨inner', halter, rfl⟩ := Option.map_eq_some_iff.mp h
    exact .inl ⟨inner, inner', .inl hkey, halter, rfl⟩
  · rename_i items hkey
    split at h
    · obtain ⟨_, _, rfl⟩ := Option.map_eq_some_iff.mp h
      exact .inr ⟨items, _, hkey, rfl⟩
    · cases h
  · cases h

/-- What a change of a table makes: the tables and arrays that stand in it stay, and new tables
stand where `new` holds of a path. -/
structure Makes (change : Table → Option Table) (new : List String → Prop) : Prop where
  grows : ∀ u u', change u = some u' → Grows (.table u) (.table u')
  made : ∀ u u' path, change u = some u' → new path → (Value.table u').HasTable path
  only : ∀ u u' path, change u = some u' → (Value.table u').HasTable path →
    (Value.table u).HasTable path ∨ new path

variable {new : List String → Prop} {way path : List String}

lemma Makes.grows_alterAt (hchange : Makes change new)
    (h : alterAt intoArrays change way t = some t') :
    Grows (.table t) (.table t') := by
  induction way generalizing t t' with
  | nil => exact hchange.grows t t' h
  | cons key way ih =>
    rcases cases_of_alterAt_cons h with ⟨inner, inner', hinner, halter, rfl⟩ |
      ⟨items, items', hitems, rfl⟩
    · refine grows_put fun old hold => ?_
      rcases hinner with hinner | ⟨hinner, rfl⟩
      · rw [hinner] at hold
        injection hold with hold
        exact hold ▸ ih halter
      · rw [hinner] at hold
        cases hold
    · refine grows_put fun old hold => ?_
      rw [hitems] at hold
      injection hold with hold
      exact hold ▸ grows_array items items'

/-- A table that was not there before a change stands on the way to the place of the change, or the
change has made it. -/
lemma Makes.cases_of_hasTable (hchange : Makes change new)
    (h : alterAt intoArrays change way t = some t') (hpath : (Value.table t').HasTable path) :
    (Value.table t).HasTable path ∨ path <+: way ∨ ∃ q, path = way ++ q ∧ new q := by
  induction way generalizing t t' path with
  | nil => exact (hchange.only t t' path h hpath).imp_right fun hnew => .inr ⟨path, rfl, hnew⟩
  | cons key way ih =>
    cases path with
    | nil => exact .inl (hasTable_nil t)
    | cons other path =>
      by_cases hother : key = other
      · subst hother
        rcases cases_of_alterAt_cons h with ⟨inner, inner', hinner, halter, rfl⟩ |
          ⟨items, items', hitems, rfl⟩
        · rcases ih halter (hasTable_put_self.mp hpath) with hold | hway | ⟨q, rfl, hnew⟩
          · rcases hinner with hinner | ⟨-, rfl⟩
            · exact .inl (hasTable_cons.mpr ⟨_, hinner, hold⟩)
            · rw [hasTable_empty_iff] at hold
              subst hold
              exact .inr (.inl (List.prefix_append [key] way))
          · exact .inr (.inl (List.cons_prefix_cons.mpr ⟨rfl, hway⟩))
          · exact .inr (.inr ⟨q, rfl, hnew⟩)
        · exact absurd (hasTable_put_self.mp hpath) (not_hasTable_array items' path)
      · rcases cases_of_alterAt_cons h with ⟨_, _, -, -, rfl⟩ | ⟨_, _, -, rfl⟩ <;>
          exact .inl ((hasTable_put_of_ne hother).mp hpath)

/-- On the way to the place of a change stand tables, and what the change makes is there, unless an
array stands on the way. -/
lemma Makes.hasTable_or_hasArray (hchange : Makes change new)
    (h : alterAt intoArrays change way t = some t')
    (hpath : path <+: way ∨ ∃ q, path = way ++ q ∧ new q) :
    (Value.table t').HasTable path ∨ ∃ r, r <+: path ∧ (Value.table t').HasArray r := by
  induction way generalizing t t' path with
  | nil =>
    rcases hpath with hway | ⟨path, rfl, hnew⟩
    · rw [List.prefix_nil.mp hway]
      exact .inl (hasTable_nil t')
    · exact .inl (hchange.made t t' path h hnew)
  | cons key way ih =>
    cases path with
    | nil => exact .inl (hasTable_nil t')
    | cons other path =>
      have hbelow : other = key ∧ (path <+: way ∨ ∃ q, path = way ++ q ∧ new q) := by
        rcases hpath with hway | ⟨q, heq, hnew⟩
        · obtain ⟨hother, hway⟩ := List.cons_prefix_cons.mp hway
          exact ⟨hother, .inl hway⟩
        · rw [List.cons_append] at heq
          injection heq with hother heq
          exact ⟨hother, .inr ⟨q, heq, hnew⟩⟩
      obtain ⟨rfl, hbelow⟩ := hbelow
      rcases cases_of_alterAt_cons h with ⟨inner, inner', -, halter, rfl⟩ |
        ⟨items, items', -, rfl⟩
      · rcases ih halter hbelow with htable | ⟨r, hr, harray⟩
        · exact .inl (hasTable_put_self.mpr htable)
        · exact .inr ⟨other :: r, List.cons_prefix_cons.mpr ⟨rfl, hr⟩,
            hasArray_put_self.mpr harray⟩
      · exact .inr ⟨[other], List.prefix_append [other] path, hasArray_put_self.mpr ⟨items', rfl⟩⟩

end AlterAt

lemma makes_some : Makes some fun _ => False where
  grows u u' h := by
    injection h with h
    exact h ▸ Grows.refl _
  made _ _ _ _ := False.elim
  only u u' path h hpath := by
    injection h with h
    exact .inl (h ▸ hpath)

lemma eq_append_of_addKey {key : String} {value : Value} {u u' : Table}
    (h : addKey key value u = some u') : u.get? key = none ∧ u' = u ++ [(key, value)] := by
  rw [addKey] at h
  split at h
  · cases h
  · rename_i hkey
    injection h with h
    exact ⟨Option.not_isSome_iff_eq_none.mp hkey, h.symm⟩

lemma makes_addKey (key : String) (value : Value) :
    Makes (addKey key value) fun path => ∃ rest, path = key :: rest ∧ value.HasTable rest where
  grows u u' h := by
    obtain ⟨-, rfl⟩ := eq_append_of_addKey h
    exact grows_append
  made u u' path h := by
    rintro ⟨rest, rfl, hrest⟩
    obtain ⟨hkey, rfl⟩ := eq_append_of_addKey h
    exact hasTable_cons.mpr ⟨value, by simp [Table.get?_append_singleton, hkey], hrest⟩
  only u u' path h hpath := by
    obtain ⟨-, rfl⟩ := eq_append_of_addKey h
    cases path with
    | nil => exact .inl (hasTable_nil u)
    | cons other path =>
      obtain ⟨v, hv, hpath⟩ := hasTable_cons.mp hpath
      rw [Table.get?_append_singleton] at hv
      cases hold : u.get? other with
      | some old =>
        rw [hold] at hv
        exact .inl (hasTable_cons.mpr ⟨v, hold.trans hv, hpath⟩)
      | none =>
        rw [hold] at hv
        obtain ⟨rfl, rfl⟩ : key = other ∧ value = v := by simpa using hv
        exact .inr ⟨path, rfl, hpath⟩

lemma exists_put_of_appendTable {key : String} {u u' : Table}
    (h : Draft.appendTable key u = some u') :
    ∃ items, u' = u.put key (.array items) ∧
      ∀ old, u.get? key = some old → ∃ items, old = .array items := by
  rw [Draft.appendTable] at h
  split at h <;> rename_i hkey
  · injection h with h
    exact ⟨_, h.symm, by simp [hkey]⟩
  · injection h with h
    exact ⟨_, h.symm, by simp [hkey]⟩
  · cases h

lemma makes_appendTable (key : String) : Makes (Draft.appendTable key) fun _ => False where
  grows u u' h := by
    obtain ⟨items', rfl, hold⟩ := exists_put_of_appendTable h
    refine grows_put fun old hkey => ?_
    obtain ⟨items, rfl⟩ := hold old hkey
    exact grows_array items items'
  made _ _ _ _ := False.elim
  only u u' path h hpath := by
    obtain ⟨items', rfl, -⟩ := exists_put_of_appendTable h
    cases path with
    | nil => exact .inl (hasTable_nil u)
    | cons other path =>
      by_cases hother : key = other
      · subst hother
        exact absurd (hasTable_put_self.mp hpath) (not_hasTable_array items' path)
      · exact .inl ((hasTable_put_of_ne hother).mp hpath)

/-! ### Statements -/

namespace Statement

/-- A statement names a table by a path of keys, where pairs are added to the table with the key
`current`: a header of the table or of one below it, an array header below it, a pair with a key
below it, or a pair with a value in which there is the table. -/
def Names (current path : List String) : Statement → Prop
  | header key => path <+: key
  | arrayHeader key => path <+: key ∧ path ≠ key
  | pair key value => (path <+: current ++ key ∧ path ≠ current ++ key) ∨
      ∃ rest, path = current ++ key ++ rest ∧ value.HasTable rest

/-- The key of the table that pairs after a statement are added to. -/
def current (before : List String) : Statement → List String
  | header key | arrayHeader key => key
  | pair _ _ => before

/-- One of several statements names a table. -/
def AreNaming (current path : List String) : List Statement → Prop
  | [] => False
  | statement :: more =>
    statement.Names current path ∨ AreNaming (statement.current current) path more

end Statement

namespace Draft

variable {d d' : Draft} {statement : Statement} {path : List String}

lemma prefix_concat_ne_iff {way : List String} {last : String} :
    path <+: way ++ [last] ∧ path ≠ way ++ [last] ↔ path <+: way := by
  rw [List.prefix_concat_iff]
  constructor
  · rintro ⟨hpath | hpath, hne⟩
    · exact absurd hpath hne
    · exact hpath
  · intro hpath
    refine ⟨.inr hpath, fun h => ?_⟩
    have hlength := hpath.length_le
    rw [h, List.length_append, List.length_singleton] at hlength
    omega

/-- A statement changes a table of the document, so that the tables that it names are there. -/
lemma exists_of_add (h : d.add statement = some d') :
    d'.current = statement.current d.current ∧ ∃ way change new, Makes change new ∧
      alterAt true change way d.root = some d'.root ∧
      ∀ path, statement.Names d.current path ↔ path <+: way ∨ ∃ q, path = way ++ q ∧ new q := by
  cases statement with
  | header key =>
    rw [add, openTable] at h
    split at h
    · cases h
    · obtain ⟨root, halter, rfl⟩ := Option.map_eq_some_iff.mp h
      exact ⟨rfl, key, some, _, makes_some, halter, fun path => by simp [Statement.Names]⟩
  | arrayHeader key =>
    rw [add, openArrayTable] at h
    split at h
    · cases h
    · dsimp only at h
      split at h
      · cases h
      · rename_i last hlast
        obtain ⟨root, halter, rfl⟩ := Option.map_eq_some_iff.mp h
        obtain ⟨way, rfl⟩ := List.getLast?_eq_some_iff.mp hlast
        rw [List.dropLast_concat] at halter
        refine ⟨rfl, way, _, _, makes_appendTable last, halter, fun path => ?_⟩
        rw [Statement.Names, prefix_concat_ne_iff]
        simp
  | pair key value =>
    rw [add, addPair] at h
    split at h
    · cases h
    · split at h
      · cases h
      · rename_i last hlast
        obtain ⟨root, halter, rfl⟩ := Option.map_eq_some_iff.mp h
        obtain ⟨way, rfl⟩ := List.getLast?_eq_some_iff.mp hlast
        rw [List.dropLast_concat] at halter
        refine ⟨rfl, d.current ++ way, _, _, makes_addKey last value, halter, fun path => ?_⟩
        rw [Statement.Names, ← List.append_assoc, prefix_concat_ne_iff]
        refine or_congr Iff.rfl ⟨?_, ?_⟩
        · rintro ⟨rest, rfl, hrest⟩
          exact ⟨last :: rest, by simp, rest, rfl, hrest⟩
        · rintro ⟨_, rfl, rest, rfl, hrest⟩
          exact ⟨rest, by simp, hrest⟩

/-- The document after several statements. -/
def addAll (d : Draft) (statements : List Statement) : Option Draft :=
  statements.foldlM add d

lemma addAll_cons (d : Draft) (statement : Statement) (more : List Statement) :
    d.addAll (statement :: more) = (d.add statement).bind (·.addAll more) :=
  List.foldlM_cons

lemma grows_of_addAll {statements : List Statement} (h : d.addAll statements = some d') :
    Grows (.table d.root) (.table d'.root) := by
  induction statements generalizing d with
  | nil =>
    cases h
    exact Grows.refl _
  | cons statement more ih =>
    rw [addAll_cons] at h
    obtain ⟨d₁, hadd, hmore⟩ := Option.bind_eq_some_iff.mp h
    obtain ⟨-, way, change, new, hchange, halter, -⟩ := exists_of_add hadd
    exact (hchange.grows_alterAt halter).trans (ih hmore)

/-- Where no array stands on the way, the tables of a document are those that were there before and
those that a statement has named. -/
theorem hasTable_addAll_iff {statements : List Statement} (h : d.addAll statements = some d')
    (hway : ∀ r, r <+: path → ¬(Value.table d'.root).HasArray r) :
    (Value.table d'.root).HasTable path ↔
      (Value.table d.root).HasTable path ∨ Statement.AreNaming d.current path statements := by
  induction statements generalizing d with
  | nil =>
    cases h
    simp [Statement.AreNaming]
  | cons statement more ih =>
    rw [addAll_cons] at h
    obtain ⟨d₁, hadd, hmore⟩ := Option.bind_eq_some_iff.mp h
    obtain ⟨hcurrent, way, change, new, hchange, halter, hnames⟩ := exists_of_add hadd
    rw [ih hmore, hcurrent, Statement.AreNaming, ← or_assoc]
    refine or_congr ⟨fun hpath => ?_, ?_⟩ Iff.rfl
    · exact (hchange.cases_of_hasTable halter hpath).imp_right (hnames path).mpr
    · rintro (hpath | hpath)
      · exact (hchange.grows_alterAt halter).table path hpath
      · rcases hchange.hasTable_or_hasArray halter ((hnames path).mp hpath) with htable |
          ⟨r, hr, harray⟩
        · exact htable
        · exact absurd ((grows_of_addAll hmore).array r harray) (hway r hr)

end Draft

end FieldComposition.Toml
