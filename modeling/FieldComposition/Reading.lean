/-!
# Readings

The result of reading something from the front of a list: a value and the rest, which is at most
as long as a given bound. Readers that carry the bound can be repeated until the list ends.
-/

namespace FieldComposition

structure Reading (τ α : Type) (bound : Nat) where
  value : α
  rest : List τ
  length_le : rest.length ≤ bound

namespace Reading

variable {τ α β : Type} {m n : Nat}

def map (f : α → β) (r : Reading τ α n) : Reading τ β n :=
  ⟨f r.value, r.rest, r.length_le⟩

/-- The same result under a greater bound. -/
def weaken (r : Reading τ α m) (h : m ≤ n) : Reading τ α n :=
  ⟨r.value, r.rest, Nat.le_trans r.length_le h⟩

/-- A value for which nothing is taken. -/
def stay (a : α) (rest : List τ) : Reading τ α rest.length :=
  ⟨a, rest, Nat.le_refl _⟩

/-- The same result with one more element in front that is taken. -/
def behind (t : τ) {rest : List τ} (r : Reading τ α rest.length) :
    Reading τ α (t :: rest).length :=
  r.weaken (Nat.le_succ _)

end Reading

end FieldComposition
