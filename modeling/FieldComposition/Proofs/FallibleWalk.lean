import Mathlib.Data.List.Forall2
import Mathlib.Tactic.Common

/-!
# Walks that may fail

What is done in steps gives a result exactly if each step does (`bind_eq_ok_iff`). A walk over a
list takes one step for every element, and ends with the first of them that fails; its result
consists of the results of the steps, one by one (`mapM_eq_ok_iff`).
-/

namespace FieldComposition

variable {α β ε : Type} {as : List α} {f : α → Except ε β}

lemma bind_eq_ok_iff {x : Except ε α} {b : β} :
    (x >>= f) = .ok b ↔ ∃ a, x = .ok a ∧ f a = .ok b := by
  cases x <;> simp [bind, Except.bind]

lemma mapM_eq_ok_iff {bs : List β} :
    as.mapM f = .ok bs ↔ List.Forall₂ (fun a b => f a = .ok b) as bs := by
  induction as generalizing bs with
  | nil =>
    rw [List.mapM_nil, List.forall₂_nil_left_iff]
    exact ⟨fun h => (Except.ok.inj h).symm, fun h => congrArg Except.ok h.symm⟩
  | cons a as ih =>
    simp only [List.mapM_cons, bind_eq_ok_iff, ih, List.forall₂_cons_left_iff]
    constructor
    · rintro ⟨b, hb, rest, hrest, h⟩
      exact ⟨b, rest, hb, hrest, (Except.ok.inj h).symm⟩
    · rintro ⟨b, rest, hb, hrest, rfl⟩
      exact ⟨b, hb, rest, hrest, rfl⟩

/-- In a walk that gives a result, each step gives a part of it. -/
lemma exists_of_mapM_eq_ok {bs : List β} (h : as.mapM f = .ok bs) {a : α} (ha : a ∈ as) :
    ∃ b ∈ bs, f a = .ok b := by
  have hsteps := mapM_eq_ok_iff.mp h
  clear h
  induction hsteps with
  | nil => exact absurd ha (by simp)
  | @cons a' b as bs hstep _ ih =>
    rcases List.mem_cons.mp ha with rfl | ha
    · exact ⟨b, List.mem_cons_self, hstep⟩
    · obtain ⟨b', hmem, hstep'⟩ := ih ha
      exact ⟨b', List.mem_cons_of_mem _ hmem, hstep'⟩

lemma mapM_congr {g : α → Except ε β} (h : ∀ a ∈ as, f a = g a) : as.mapM f = as.mapM g := by
  induction as with
  | nil => rfl
  | cons a as ih =>
    rw [List.mapM_cons, List.mapM_cons, h a (by simp), ih fun a ha => h a (by simp [ha])]

/-- A walk fails with what fails in one of its steps. -/
lemma exists_of_mapM_eq_error {fault : ε} (h : as.mapM f = .error fault) :
    ∃ a ∈ as, f a = .error fault := by
  induction as with
  | nil => exact absurd h nofun
  | cons a as ih =>
    rw [List.mapM_cons] at h
    cases ha : f a with
    | error other =>
      rw [ha] at h
      obtain rfl : other = fault := Except.error.inj h
      exact ⟨a, List.mem_cons_self, ha⟩
    | ok b =>
      cases hrest : as.mapM f with
      | error other =>
        obtain rfl : other = fault := by simpa [ha, hrest, bind, Except.bind] using h
        obtain ⟨a', ha', hfault⟩ := ih hrest
        exact ⟨a', List.mem_cons_of_mem _ ha', hfault⟩
      | ok rest => simp [ha, hrest, bind, Except.bind, pure, Except.pure] at h

/-- A walk all of whose steps succeed gives a result. -/
lemma exists_mapM_eq_ok (h : ∀ a ∈ as, ∃ b, f a = .ok b) : ∃ bs, as.mapM f = .ok bs := by
  cases hbs : as.mapM f with
  | ok bs => exact ⟨bs, rfl⟩
  | error fault =>
    obtain ⟨a, ha, hfault⟩ := exists_of_mapM_eq_error hbs
    obtain ⟨b, hb⟩ := h a ha
    exact absurd (hb.symm.trans hfault) nofun

end FieldComposition
