import FieldComposition.FieldTable
import Mathlib.Data.List.Nodup
import Mathlib.Tactic.Common

/-!
# Resolution and repeated targets

`Composition.resolve` succeeds exactly on compositions whose targets differ pairwise. Its table then
holds every entry once, with the group it came from; otherwise its conflict is the earliest one in
source order (`resolve_spec`).
-/

namespace FieldComposition

namespace Composition

/-- The claims that the entries of a composition make, in source order. -/
def allClaims (c : Composition) : List Claim :=
  c.claims.map fun pair => ⟨pair.1, pair.2⟩

/-- The table that holds these claims. -/
def table (c : Composition) : FieldTable :=
  { claims := c.allClaims, groups := c.groups, base := c.base }

lemma map_entry_allClaims (c : Composition) : c.allClaims.map Claim.entry = c.entries := by
  have hitem (i : Item) : i.claims.map Prod.fst = i.entries := by
    cases i with
    | entry e => rfl
    | group g =>
      simp only [Item.claims, Item.entries, List.map_map]
      exact List.map_id _
  simp only [allClaims, claims, entries, List.map_map, List.map_flatMap]
  exact congrArg (List.flatMap · c.items) (funext hitem)

lemma map_target_allClaims (c : Composition) :
    c.allClaims.map Claim.target = c.entries.map Entry.target := by
  rw [← map_entry_allClaims, List.map_map]
  rfl

lemma targets_table (c : Composition) : c.table.targets = c.entries.map Entry.target :=
  map_target_allClaims c

/-- A grouped claim carries a group of the composition that its entry belongs to. -/
lemma mem_groups_of_mem_allClaims {c : Composition} {claim : Claim} {g : Group}
    (h : claim ∈ c.allClaims) (hg : claim.group = some g) :
    g ∈ c.groups ∧ claim.entry ∈ g.entries := by
  obtain ⟨pair, hpair, rfl⟩ := List.mem_map.mp h
  obtain ⟨i, hi, hmem⟩ := List.mem_flatMap.mp hpair
  cases i with
  | entry e =>
    obtain rfl : pair = (e, none) := by simpa [Item.claims] using hmem
    exact absurd hg (by simp)
  | group g' =>
    obtain ⟨e, he, rfl⟩ := List.mem_map.mp hmem
    obtain rfl : g' = g := by simpa using hg
    exact ⟨List.mem_filterMap.mpr ⟨.group g', hi, rfl⟩, he⟩

end Composition

/-- The second claim of a conflict is the first of all claims whose target is taken: those before it
have targets of their own, and the one that took the target is the first claim of the conflict. -/
def Conflict.IsEarliestIn (conflict : Conflict) (claims : List Claim) : Prop :=
  ∃ before between after,
    claims = (before ++ conflict.first :: between) ++ conflict.second :: after ∧
    ((before ++ conflict.first :: between).map Claim.target).Nodup ∧
    conflict.first.target = conflict.second.target

lemma Conflict.IsEarliestIn.not_nodup {conflict : Conflict} {claims : List Claim}
    (h : conflict.IsEarliestIn claims) : ¬(claims.map Claim.target).Nodup := by
  obtain ⟨before, between, after, rfl, -, htarget⟩ := h
  intro hnodup
  rw [List.map_append, List.nodup_append] at hnodup
  refine hnodup.2.2 conflict.first.target ?_ conflict.second.target ?_ htarget
  · simp
  · simp

namespace Composition

/-- The claims made so far have targets of their own; adding more keeps it so or ends in the
earliest conflict. -/
lemma addClaims_spec (made : List Claim) (pairs : List (Entry × Option Group))
    (hmade : (made.map Claim.target).Nodup) :
    let claims := made ++ pairs.map fun pair => ⟨pair.1, pair.2⟩
    match addClaims made pairs with
    | .ok result => result = claims ∧ (claims.map Claim.target).Nodup
    | .error conflict => conflict.IsEarliestIn claims := by
  intro claims
  induction pairs generalizing made with
  | nil =>
    rw [addClaims]
    exact ⟨by simp [claims], by simpa [claims] using hmade⟩
  | cons pair pairs ih =>
    obtain ⟨entry, group⟩ := pair
    rw [addClaims]
    cases hfind : made.find? (·.target == (⟨entry, group⟩ : Claim).target) with
    | some first =>
      obtain ⟨htarget, before, between, rfl, -⟩ := List.find?_eq_some_iff_append.mp hfind
      exact ⟨before, between, _, rfl, hmade, by simpa using htarget⟩
    | none =>
      have hfresh : ∀ claim ∈ made, claim.target ≠ (⟨entry, group⟩ : Claim).target := by
        simpa using List.find?_eq_none.mp hfind
      have hnodup : ((made ++ [(⟨entry, group⟩ : Claim)]).map Claim.target).Nodup := by
        rw [List.map_append, List.nodup_append]
        refine ⟨hmade, List.nodup_singleton _, ?_⟩
        rintro target htarget other hother rfl
        obtain ⟨claim, hclaim, rfl⟩ := List.mem_map.mp htarget
        exact hfresh claim hclaim (by simpa using hother)
      have hrest := ih (made ++ [⟨entry, group⟩]) hnodup
      simpa [claims] using hrest

end Composition

namespace FieldTable

/-- Looking up a target finds the only claim of it. -/
lemma get?_eq_some_iff {t : FieldTable} (h : t.targets.Nodup) {target : String} {claim : Claim} :
    t.get? target = some claim ↔ claim ∈ t.claims ∧ claim.target = target := by
  constructor
  · intro hget
    exact ⟨List.mem_of_find?_eq_some hget, by simpa using List.find?_some hget⟩
  · rintro ⟨hmem, rfl⟩
    have hsome : (t.get? claim.target).isSome :=
      List.find?_isSome.mpr ⟨claim, hmem, by simp⟩
    obtain ⟨found, hfound⟩ := Option.isSome_iff_exists.mp hsome
    have htarget : found.target = claim.target := by simpa using List.find?_some hfound
    rw [hfound, List.inj_on_of_nodup_map h (List.mem_of_find?_eq_some hfound) hmem htarget]

lemma get?_eq_none_iff {t : FieldTable} {target : String} :
    t.get? target = none ↔ target ∉ t.targets := by
  simp [get?, targets]

lemma fallsBackToBase_iff {t : FieldTable} {target : String} :
    t.fallsBackToBase target = true ↔ t.base.isSome ∧ target ∉ t.targets := by
  simp [fallsBackToBase, contains]

end FieldTable

namespace Composition

lemma addClaims_claims (c : Composition) :
    match addClaims [] c.claims with
    | .ok claims => claims = c.allClaims ∧ (c.allClaims.map Claim.target).Nodup
    | .error conflict => conflict.IsEarliestIn c.allClaims :=
  addClaims_spec [] c.claims List.nodup_nil

lemma resolve_eq_ok_iff {c : Composition} {t : FieldTable} :
    c.resolve = .ok t ↔ (c.entries.map Entry.target).Nodup ∧ t = c.table := by
  have hspec := addClaims_claims c
  rw [← map_target_allClaims, resolve]
  cases hclaims : addClaims [] c.claims with
  | ok claims =>
    rw [hclaims] at hspec
    obtain ⟨rfl, hnodup⟩ := hspec
    simp only [hnodup, true_and, Except.ok.injEq, table, eq_comm]
  | error conflict =>
    rw [hclaims] at hspec
    simp [hspec.not_nodup]

lemma isEarliestIn_of_resolve {c : Composition} {conflict : Conflict}
    (h : c.resolve = .error conflict) : conflict.IsEarliestIn c.allClaims := by
  have hspec := addClaims_claims c
  rw [resolve] at h
  cases hclaims : addClaims [] c.claims with
  | ok claims => simp [hclaims] at h
  | error other =>
    rw [hclaims] at h hspec
    obtain rfl : other = conflict := by simpa using h
    exact hspec

end Composition

end FieldComposition
