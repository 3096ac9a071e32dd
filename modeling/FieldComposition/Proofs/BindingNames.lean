import FieldComposition.Emission.Plan
import FieldComposition.Proofs.UniqueTargets
import Mathlib.Data.List.Nodup
import Mathlib.Tactic.Common

/-!
# Names of bound sources

The sources of the groups are bound to names that differ pairwise (`nodup_bindingNames`). Each name
depends on the groups up to its own only (`bindingNames_append`): it is the natural name of the
group, or this name with as many suffixes behind it as it takes to differ from the names before
(`getElem?_bindingNames`). Groups with entries of different targets differ themselves, so that each
is found under its own name (`map_sourceName`).
-/

namespace FieldComposition

namespace FieldTable

/-- A name with a number of suffixes behind it. -/
def suffixed (suffix : String) (n : ℕ) (name : String) : String :=
  name ++ String.join (List.replicate n suffix)

@[simp] lemma suffixed_zero (suffix name : String) : suffixed suffix 0 name = name := by
  rw [suffixed, List.replicate_zero, String.join_nil, String.append_empty]

lemma suffixed_succ (suffix : String) (n : ℕ) (name : String) :
    suffixed suffix (n + 1) name = suffixed suffix n (name ++ suffix) := by
  rw [suffixed, suffixed, List.replicate_succ, String.join_cons, String.append_assoc]

lemma suffixed_ne {suffix : String} (hsuffix : suffix ≠ "") (n : ℕ) (name : String) :
    suffixed suffix (n + 1) name ≠ name := by
  intro heq
  have hlength := congrArg String.length heq
  rw [suffixed, List.replicate_succ, String.join_cons, String.length_append,
    String.length_append] at hlength
  have hpos : suffix.length ≠ 0 := by simpa using hsuffix
  omega

lemma suffixed_induction {P : String → Prop} {suffix name : String} (hname : P name)
    (hsuffix : ∀ name, P name → P (name ++ suffix)) (n : ℕ) : P (suffixed suffix n name) := by
  induction n generalizing name with
  | zero => rwa [suffixed_zero]
  | succ n ih =>
    rw [suffixed_succ]
    exact ih (hsuffix name hname)

/-- The name that is chosen is the given one with as few suffixes behind it as it takes: all names
with fewer suffixes are taken. -/
lemma exists_freshen_eq (suffix : String) (taken : List String) (name : String) :
    ∃ n, freshen suffix taken name = suffixed suffix n name ∧
      ∀ m < n, suffixed suffix m name ∈ taken := by
  induction taken, name using freshen.induct suffix with
  | case1 taken name h ih =>
    obtain ⟨n, hn, htaken⟩ := ih
    refine ⟨n + 1, ?_, fun m hm => ?_⟩
    · rw [freshen, if_pos h, hn, suffixed_succ]
    · cases m with
      | zero =>
        rw [suffixed_zero]
        simpa using h
      | succ m =>
        rw [suffixed_succ]
        exact List.mem_of_mem_erase (htaken m (by omega))
  | case2 taken name h =>
    refine ⟨0, ?_, fun m hm => absurd hm (Nat.not_lt_zero m)⟩
    rw [freshen, if_neg h, suffixed_zero]

/-- The name that is chosen is not taken: it is longer than those that were met on the way. -/
lemma freshen_not_mem {suffix : String} (hsuffix : suffix ≠ "") (taken : List String)
    (name : String) : freshen suffix taken name ∉ taken := by
  induction taken, name using freshen.induct suffix with
  | case1 taken name h ih =>
    rw [freshen, if_pos h]
    obtain ⟨n, hn, -⟩ := exists_freshen_eq suffix (taken.erase name) (name ++ suffix)
    have hne : freshen suffix (taken.erase name) (name ++ suffix) ≠ name := by
      rw [hn, ← suffixed_succ]
      exact suffixed_ne hsuffix n name
    intro hmem
    exact ih ((List.mem_erase_of_ne hne).mpr hmem)
  | case2 taken name h =>
    rw [freshen, if_neg h]
    simpa using h

lemma bindingNamesFrom_spec (stem : String) (groups : List Group) (taken : List String)
    (index : Nat) (htaken : taken.Nodup) :
    ∃ names, bindingNamesFrom stem taken index groups = taken ++ names ∧
      names.length = groups.length ∧ (taken ++ names).Nodup := by
  induction groups generalizing taken index with
  | nil => exact ⟨[], by rw [bindingNamesFrom, List.append_nil], rfl, by simpa using htaken⟩
  | cons group groups ih =>
    let name := freshen ("_" ++ toString index) taken (group.bindingName stem)
    have hfresh : name ∉ taken := freshen_not_mem (by simp) taken _
    have hnodup : (taken ++ [name]).Nodup := by
      simpa [List.nodup_append, htaken] using fun a ha (h : a = name) => hfresh (h ▸ ha)
    obtain ⟨names, hnames, hlength, hrest⟩ := ih (taken ++ [name]) (index + 1) hnodup
    refine ⟨name :: names, ?_, by rw [List.length_cons, hlength, List.length_cons], ?_⟩
    · rw [bindingNamesFrom, hnames, List.append_assoc]
      rfl
    · simpa [List.append_assoc] using hrest

lemma length_bindingNames (t : FieldTable) (stem : String) :
    (t.bindingNames stem).length = t.groups.length := by
  obtain ⟨names, hnames, hlength, -⟩ := bindingNamesFrom_spec stem t.groups [] 0 List.nodup_nil
  rw [bindingNames, hnames, List.nil_append, hlength]

/-- The sources are bound to different names. -/
theorem nodup_bindingNames (t : FieldTable) (stem : String) : (t.bindingNames stem).Nodup := by
  obtain ⟨names, hnames, -, hnodup⟩ := bindingNamesFrom_spec stem t.groups [] 0 List.nodup_nil
  rw [bindingNames, hnames]
  exact hnodup

section

variable {stem : String} {groups more : List Group} {taken : List String} {index : ℕ}

/-- The names of groups are those of the first of them, and then those of the others. -/
lemma bindingNamesFrom_append :
    bindingNamesFrom stem taken index (groups ++ more) =
      bindingNamesFrom stem (bindingNamesFrom stem taken index groups) (index + groups.length)
        more := by
  induction groups generalizing taken index with
  | nil => rfl
  | cons group groups ih =>
    rw [List.cons_append, bindingNamesFrom, bindingNamesFrom, ih, List.length_cons]
    congr 1
    omega

lemma prefix_bindingNamesFrom : taken <+: bindingNamesFrom stem taken index groups := by
  induction groups generalizing taken index with
  | nil => exact List.prefix_rfl
  | cons group groups ih =>
    rw [bindingNamesFrom]
    exact (List.prefix_append ..).trans ih

/-- Groups that are added behind others leave the names of these as they are. -/
lemma bindingNames_append (t : FieldTable) (stem : String) (more : List Group) :
    t.bindingNames stem <+:
      ({ t with groups := t.groups ++ more } : FieldTable).bindingNames stem := by
  unfold bindingNames
  rw [bindingNamesFrom_append]
  exact prefix_bindingNamesFrom

/-- Every name is chosen against those before it. -/
lemma getElem?_bindingNames {t : FieldTable} {i : ℕ} {group : Group}
    (h : t.groups[i]? = some group) (stem : String) :
    (t.bindingNames stem)[i]? =
      some (freshen ("_" ++ toString i) ((t.bindingNames stem).take i)
        (group.bindingName stem)) := by
  obtain ⟨hi, hgroup⟩ := List.getElem?_eq_some_iff.mp h
  -- The names before this one are those of the table that ends in front of the group.
  let before : FieldTable := { groups := t.groups.take i }
  let name := freshen ("_" ++ toString i) (before.bindingNames stem) (group.bindingName stem)
  have hlength : (before.bindingNames stem).length = i := by
    rw [length_bindingNames, List.length_take_of_le (Nat.le_of_lt hi)]
  have hbegins : before.bindingNames stem ++ [name] <+: t.bindingNames stem := by
    have hsplit : t.groups = t.groups.take i ++ group :: t.groups.drop (i + 1) := by
      rw [← hgroup, ← List.drop_eq_getElem_cons hi, List.take_append_drop]
    unfold bindingNames
    rw [hsplit, bindingNamesFrom_append, List.length_take_of_le (Nat.le_of_lt hi), Nat.zero_add,
      bindingNamesFrom]
    exact prefix_bindingNamesFrom
  obtain ⟨rest, hnames⟩ := hbegins
  rw [← hnames, List.append_assoc, List.take_left' hlength,
    List.getElem?_append_right (Nat.le_of_eq hlength), hlength, Nat.sub_self]
  rfl

/-- The names have a property that the natural names have and that suffixes keep. -/
lemma forall_mem_bindingNames {t : FieldTable} {P : String → Prop}
    (hnatural : ∀ group ∈ t.groups, P (group.bindingName stem))
    (hsuffix : ∀ (i : ℕ) (name : String), P name → P (name ++ ("_" ++ toString i))) :
    ∀ name ∈ t.bindingNames stem, P name := by
  intro name hname
  obtain ⟨i, hname⟩ := List.mem_iff_getElem?.mp hname
  have hi : i < t.groups.length := by
    rw [← length_bindingNames t stem]
    exact (List.getElem?_eq_some_iff.mp hname).1
  have hgroup : t.groups[i]? = some t.groups[i] := List.getElem?_eq_getElem hi
  obtain ⟨n, hfresh, -⟩ := exists_freshen_eq ("_" ++ toString i) ((t.bindingNames stem).take i)
    (t.groups[i].bindingName stem)
  rw [getElem?_bindingNames hgroup, hfresh] at hname
  obtain rfl := Option.some.inj hname
  exact suffixed_induction (hnatural _ (List.getElem_mem hi)) (hsuffix i) n

end

/-- Different groups are found under the names that belong to their places. -/
lemma map_sourceName {t : FieldTable} (h : t.groups.Nodup) (stem : String) :
    t.groups.map (t.sourceName stem) = t.bindingNames stem := by
  have hlength := length_bindingNames t stem
  refine List.ext_getElem (by rw [List.length_map, hlength]) fun i hi hi' => ?_
  rw [List.length_map] at hi
  rw [List.getElem_map, sourceName, bindingOf, List.Nodup.idxOf_getElem h,
    List.getElem?_eq_getElem hi', Option.getD_some]

end FieldTable

namespace Composition

lemma sublist_entries (c : Composition) : (c.groups.flatMap Group.entries).Sublist c.entries := by
  unfold groups entries
  induction c.items with
  | nil => exact .slnil
  | cons i items ih =>
    cases i with
    | entry e => exact ih.cons e
    | group g =>
      simp only [List.filterMap_cons, Item.group?, List.flatMap_cons, Item.entries]
      exact (List.Sublist.refl _).append ih

/-- Groups that have entries, all of different targets, are different. -/
lemma nodup_groups {c : Composition} (htargets : (c.entries.map Entry.target).Nodup)
    (hgroups : ∀ g ∈ c.groups, g.entries ≠ []) : c.groups.Nodup := by
  have hnodup := htargets.sublist ((sublist_entries c).map Entry.target)
  rw [List.map_flatMap, List.nodup_flatMap] at hnodup
  refine hnodup.2.imp_of_mem fun {g g'} hg _ hdisjoint heq => ?_
  obtain ⟨e, entries, hentries⟩ := List.exists_cons_of_ne_nil (hgroups g hg)
  have hmem : e.target ∈ g.entries.map Entry.target :=
    List.mem_map_of_mem (by rw [hentries]; exact List.mem_cons_self)
  exact hdisjoint hmem (heq ▸ hmem)

end Composition

end FieldComposition
