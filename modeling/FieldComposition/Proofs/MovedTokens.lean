import FieldComposition.Proofs.CapturedText

/-!
# Tokens at another place

The tokens of a part of a text are the same when the part stands elsewhere, but for their offsets
and their positions (`Stretch.tokens_move`). The text from one of them to another one is the same as
well (`Token.textOf_move`).
-/

namespace FieldComposition

namespace Token

/-- The token of what stood from the offset `k` on and stands from `k'` on. -/
def move (k k' : Nat) (σ : Position → Position) (t : Token) : Token :=
  { t with start := k' + (t.start - k), stop := k' + (t.stop - k), position := σ t.position }

variable {text text' : String} {k k' : Nat} {σ : Position → Position} {ts : List Token}

/-- Tokens in the common front of two texts have the same text in both. -/
lemma textOf_of_take_eq (h : text'.toList.take k = text.toList.take k)
    (hts : ∀ t ∈ ts, t.stop ≤ k) : textOf text' ts = textOf text ts := by
  unfold textOf
  split
  · rename_i first last hfirst hlast
    have hstop := hts last (List.mem_of_getLast? hlast)
    have htake := congrArg (List.take last.stop) h
    rw [List.take_take, List.take_take, Nat.min_eq_left hstop] at htake
    rw [Text.slice, Text.slice, ← List.drop_take, ← List.drop_take, htake]
  · rfl

/-- Tokens in the common end of two texts have the same text in both. -/
lemma textOf_move (h : text'.toList.drop k' = text.toList.drop k)
    (hts : ∀ t ∈ ts, k ≤ t.start ∧ k ≤ t.stop) :
    textOf text' (ts.map (move k k' σ)) = textOf text ts := by
  unfold textOf
  rw [List.head?_map, List.getLast?_map]
  rcases hfirst : ts.head? with - | first
  · rfl
  rcases hlast : ts.getLast? with - | last
  · rfl
  have hstart := (hts first (List.mem_of_head? hfirst)).1
  have hstop := (hts last (List.mem_of_getLast? hlast)).2
  have hlength : k' + (last.stop - k) - (k' + (first.start - k)) = last.stop - first.start := by
    omega
  have hbehind := congrArg (List.drop (first.start - k)) h
  rw [List.drop_drop, List.drop_drop, Nat.add_sub_cancel' hstart] at hbehind
  simp only [Option.map_some, move, Text.slice, hlength, hbehind]

end Token

/-- Tokens move with the text that they are read from, if reading on commutes with the move at all
positions that are reached. -/
lemma Stretch.tokens_move {P : Position → Prop} {σ : Position → Position} {k k' offset : Nat}
    {p : Position} {parts : List Stretch}
    (hσ : ∀ p c, P p → P (p.step c) ∧ (σ p).step c = σ (p.step c)) (hp : P p) :
    tokens (k' + offset) (σ p) parts = (tokens (k + offset) p parts).map (Token.move k k' σ) := by
  have hadvance (cs : List Char) {p : Position} (hp : P p) :
      P (p.advance cs) ∧ (σ p).advance cs = σ (p.advance cs) := by
    induction cs generalizing p with
    | nil => exact ⟨hp, rfl⟩
    | cons c cs ih =>
      rw [Position.advance_cons, Position.advance_cons, (hσ p c hp).2]
      exact ih (hσ p c hp).1
  induction parts generalizing offset p with
  | nil => rfl
  | cons s parts ih =>
    obtain ⟨hp', hcommutes⟩ := hadvance s.chars hp
    rw [tokens, tokens, List.map_append, Nat.add_assoc, Nat.add_assoc, hcommutes, ih hp']
    cases s.kind? with
    | none => rfl
    | some kind => simp [Token.move]

end FieldComposition
