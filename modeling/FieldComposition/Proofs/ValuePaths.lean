import FieldComposition.Toml.Table
import Mathlib.Tactic.Lemma

/-!
# Paths into values

What stands in a document is found by a path of keys that leads through tables. A path ends at an
array: it is no table, and it is followed no further.
-/

namespace FieldComposition.Toml

namespace Value

/-- The value that a path of keys leads to through tables. -/
def at? : Value → List String → Option Value
  | v, [] => some v
  | table t, key :: path => (Table.get? t key).bind (·.at? path)
  | _, _ :: _ => none

def isTable : Value → Bool
  | table _ => true
  | _ => false

@[simp] lemma at?_nil (v : Value) : v.at? [] = some v := by
  cases v <;> rfl

@[simp] lemma at?_table_cons (t : Table) (key : String) (path : List String) :
    (table t).at? (key :: path) = (t.get? key).bind (·.at? path) :=
  rfl

lemma at?_cons_of_not_isTable {v : Value} (h : v.isTable = false) (key : String)
    (path : List String) : v.at? (key :: path) = none := by
  cases v <;> first | rfl | cases h

lemma exists_eq_table {v : Value} (h : v.isTable) : ∃ t, v = table t := by
  cases v <;> first | exact ⟨_, rfl⟩ | cases h

/-- Concatenated paths lead where one leads from where the other one does. -/
lemma at?_append (v : Value) (way path : List String) :
    v.at? (way ++ path) = (v.at? way).bind (·.at? path) := by
  induction way generalizing v with
  | nil => simp
  | cons key way ih =>
    cases hv : v.isTable with
    | false => simp [at?_cons_of_not_isTable hv]
    | true =>
      obtain ⟨t, rfl⟩ := exists_eq_table hv
      cases hget : Table.get? t key with
      | none => simp [hget]
      | some inner => simp [hget, ih]

/-- A path of keys leads from a value to a table. -/
def HasTable (v : Value) (path : List String) : Prop :=
  ∃ entries, v.at? path = some (table entries)

/-- A path of keys leads from a value to an array. -/
def HasArray (v : Value) (path : List String) : Prop :=
  ∃ items, v.at? path = some (array items)

lemma hasTable_nil (t : Table) : (table t).HasTable [] :=
  ⟨t, rfl⟩

lemma hasTable_cons {t : Table} {key : String} {path : List String} :
    (table t).HasTable (key :: path) ↔ ∃ v, t.get? key = some v ∧ v.HasTable path := by
  simp only [HasTable, at?_table_cons, Option.bind_eq_some_iff]
  exact ⟨fun ⟨entries, v, hv, h⟩ => ⟨v, hv, entries, h⟩,
    fun ⟨v, hv, entries, h⟩ => ⟨entries, v, hv, h⟩⟩

lemma hasArray_cons {t : Table} {key : String} {path : List String} :
    (table t).HasArray (key :: path) ↔ ∃ v, t.get? key = some v ∧ v.HasArray path := by
  simp only [HasArray, at?_table_cons, Option.bind_eq_some_iff]
  exact ⟨fun ⟨items, v, hv, h⟩ => ⟨v, hv, items, h⟩, fun ⟨v, hv, items, h⟩ => ⟨items, v, hv, h⟩⟩

lemma HasTable.isTable {v : Value} {path : List String} (h : v.HasTable path) : v.isTable := by
  obtain ⟨entries, h⟩ := h
  cases path with
  | nil =>
    rw [at?_nil] at h
    injection h with h
    subst h
    rfl
  | cons key path =>
    cases hv : v.isTable with
    | true => rfl
    | false =>
      rw [at?_cons_of_not_isTable hv] at h
      cases h

/-- On the way to a table stand tables only. -/
lemma HasTable.of_prefix {v : Value} {way path : List String} (h : v.HasTable path)
    (hway : way <+: path) : v.HasTable way := by
  obtain ⟨rest, rfl⟩ := hway
  obtain ⟨entries, h⟩ := h
  rw [at?_append, Option.bind_eq_some_iff] at h
  obtain ⟨inner, hinner, h⟩ := h
  obtain ⟨t, rfl⟩ := exists_eq_table (HasTable.isTable ⟨entries, h⟩)
  exact ⟨t, hinner⟩

lemma HasTable.not_hasArray {v : Value} {path : List String} (h : v.HasTable path) :
    ¬v.HasArray path := by
  rintro ⟨items, harray⟩
  obtain ⟨entries, htable⟩ := h
  rw [htable] at harray
  cases harray

end Value

namespace Table

variable {t : Table} {key other : String} {value : Value}

lemma get?_cons (entry : String × Value) (t : Table) (other : String) :
    Table.get? (entry :: t) other = if entry.1 = other then some entry.2 else t.get? other := by
  rw [get?, List.find?_cons]
  by_cases h : entry.1 = other
  · rw [beq_iff_eq.mpr h, if_pos h]
    rfl
  · rw [beq_false_of_ne h, if_neg h]
    rfl

lemma get?_append_singleton :
    Table.get? (t ++ [(key, value)]) other =
      (t.get? other).or (if key = other then some value else none) := by
  induction t with
  | nil => exact get?_cons _ _ _
  | cons entry t ih =>
    rw [List.cons_append, get?_cons, get?_cons, ih]
    by_cases h : entry.1 = other <;> simp [h]

lemma any_eq_isSome_get? (t : Table) (key : String) :
    t.any (·.1 == key) = (t.get? key).isSome := by
  rw [get?, Option.isSome_map, Bool.eq_iff_iff, List.any_eq_true, List.find?_isSome]

lemma get?_map_replace (t : Table) (key : String) (value : Value) (other : String) :
    Table.get? (t.map fun entry => if entry.1 == key then (key, value) else entry) other =
      if key = other then (t.get? key).map fun _ => value else t.get? other := by
  induction t with
  | nil => simp [get?]
  | cons entry t ih =>
    rw [List.map_cons, get?_cons, get?_cons, get?_cons, ih]
    by_cases hkey : entry.1 = key
    · subst hkey
      by_cases hother : entry.1 = other <;> simp [hother]
    · by_cases hother : key = other
      · subst hother
        simp [hkey]
      · simp [hkey, hother]

/-- A key that is given a value has it, and the other keys keep theirs. -/
lemma get?_put (t : Table) (key : String) (value : Value) (other : String) :
    (t.put key value).get? other = if key = other then some value else t.get? other := by
  rw [put, any_eq_isSome_get?]
  cases hkey : t.get? key with
  | some old =>
    rw [Option.isSome_some, if_pos rfl, get?_map_replace, hkey]
    rfl
  | none =>
    rw [Option.isSome_none, if_neg Bool.false_ne_true, get?_append_singleton]
    by_cases hother : key = other
    · subst hother
      rw [hkey, if_pos rfl]
      rfl
    · simp [hother]

end Table

end FieldComposition.Toml
