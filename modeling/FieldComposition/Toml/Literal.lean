import FieldComposition.Toml.Key
import FieldComposition.Toml.Moment
import FieldComposition.Toml.Number
import FieldComposition.Toml.Table

/-!
# Values as they are written

A value is a string, a number, a truth value, a moment, an array or an inline table. Arrays may
run over several lines, inline tables stand on one.
-/

namespace FieldComposition.Toml

open Reader

/-- A value that holds no other values. -/
def scalar : Reader Value := do
  match ← peek with
  | some '"' =>
    return .string (← quotedString '"' (basicRest true) (basicRest false))
  | some '\'' =>
    return .string (← quotedString '\'' literalLinesRest literalRest)
  | _ =>
    if ← accepts ['t', 'r', 'u', 'e'] then return .boolean true
    else if ← accepts ['f', 'a', 'l', 's', 'e'] then return .boolean false
    else
      match ← moment? with
      | some moment => return moment
      | none => number

mutual

/-- A value: an array, an inline table or a scalar. -/
def value (cs : List Char) : Except Fault (Reading Char Value cs.length) :=
  match cs with
  | [] => .error .malformed
  | c :: rest =>
    if c = '[' then
      match arrayLayout false rest with
      | .error fault => .error fault
      | .ok ⟨_, [], _⟩ => .error .malformed
      | .ok ⟨_, d :: more, h⟩ =>
        if d = ']' then .ok ⟨.array [], more, Nat.le_succ_of_le (Nat.le_of_succ_le h)⟩
        else
          (items [] (d :: more)).map fun r =>
            (r.map Value.array).weaken (Nat.le_succ_of_le h)
    else if c = '{' then
      match spaces rest with
      | .error fault => .error fault
      | .ok ⟨_, [], _⟩ => .error .malformed
      | .ok ⟨_, d :: more, h⟩ =>
        if d = '}' then .ok ⟨.table [], more, Nat.le_succ_of_le (Nat.le_of_succ_le h)⟩
        else
          (pairs {} (d :: more)).map fun r =>
            (r.map fun t => Value.table t.entries).weaken (Nat.le_succ_of_le h)
    else scalar (c :: rest)
termination_by (cs.length, 0)
decreasing_by
  all_goals
    simp only [List.length_cons] at *
    exact Prod.Lex.left _ _ (by omega)

/-- The values of an array up to its closing bracket, after those that have been read. -/
def items (before : List Value) (cs : List Char) :
    Except Fault (Reading Char (List Value) cs.length) :=
  match value cs with
  | .error fault => .error fault
  | .ok ⟨v, afterValue, h⟩ =>
    match arrayLayout false afterValue with
    | .error fault => .error fault
    | .ok ⟨_, [], _⟩ => .error .malformed
    | .ok ⟨_, c :: rest, h'⟩ =>
      if c = ']' then
        .ok ⟨before ++ [v], rest, Nat.le_trans (Nat.le_of_succ_le h') h⟩
      else if c = ',' then
        match arrayLayout false rest with
        | .error fault => .error fault
        | .ok ⟨_, [], _⟩ => .error .malformed
        | .ok ⟨_, d :: more, h''⟩ =>
          if d = ']' then
            .ok ⟨before ++ [v], more, by simp only [List.length_cons] at *; omega⟩
          else
            (items (before ++ [v]) (d :: more)).map
              (·.weaken (by simp only [List.length_cons] at *; omega))
      else .error .malformed
termination_by (cs.length, 1)
decreasing_by
  · exact Prod.Lex.right _ (by omega)
  · simp only [List.length_cons] at *
    exact Prod.Lex.left _ _ (by omega)

/-- The pairs of an inline table up to its closing brace, after those that have been read. -/
def pairs (before : InlineTable) (cs : List Char) :
    Except Fault (Reading Char InlineTable cs.length) :=
  match keyAndEquals cs with
  | .error fault => .error fault
  | .ok ⟨path, atValue, hk⟩ =>
    match value atValue with
    | .error fault => .error fault
    | .ok ⟨v, afterValue, hv⟩ =>
      match before.add path v, spaces afterValue with
      | some table, .ok ⟨_, c :: rest, h⟩ =>
        if c = '}' then .ok ⟨table, rest, by simp only [List.length_cons] at *; omega⟩
        else if c = ',' then
          match spaces rest with
          | .error fault => .error fault
          | .ok ⟨_, left, h'⟩ =>
            (pairs table left).map (·.weaken (by simp only [List.length_cons] at *; omega))
        else .error .malformed
      | _, _ => .error .malformed
termination_by (cs.length, 1)
decreasing_by
  · rcases Nat.lt_or_eq_of_le hk with h | h
    · exact Prod.Lex.left _ _ h
    · rw [h]
      exact Prod.Lex.right _ (by omega)
  · simp only [List.length_cons] at *
    exact Prod.Lex.left _ _ (by omega)

end

end FieldComposition.Toml
