import FieldComposition.Proofs.Coupling

/-!
# Commas inside and outside of brackets

The arguments of a call stand between the commas outside of all brackets
(`Token.arguments`). Tokens that close the brackets that they open are `Enclosed`, with commas only
inside of these or with commas outside of them as well. Those without a comma outside of them belong
to one argument (`Token.splitAtCommas_append`).
-/

namespace FieldComposition

lemma TokenKind.isOpener_eq_false_of_isCloser {kind : TokenKind} (h : kind.isCloser) :
    kind.isOpener = false := by
  cases kind <;> simp_all [isOpener, isCloser, closer?]

/-- Kinds of tokens that close `depth` brackets and all those that they open. Unless `commas` is set
every comma among them stands inside of a bracket. -/
inductive Enclosed (commas : Bool) : Nat → List TokenKind → Prop
  | nil : Enclosed commas 0 []
  | opener {depth : Nat} {kind : TokenKind} {kinds : List TokenKind} (hkind : kind.isOpener)
      (hrest : Enclosed commas (depth + 1) kinds) : Enclosed commas depth (kind :: kinds)
  | closer {depth : Nat} {kind : TokenKind} {kinds : List TokenKind} (hkind : kind.isCloser)
      (hrest : Enclosed commas depth kinds) : Enclosed commas (depth + 1) (kind :: kinds)
  | plain {depth : Nat} {kind : TokenKind} {kinds : List TokenKind}
      (hopener : kind.isOpener = false) (hcloser : kind.isCloser = false)
      (hcomma : depth = 0 → kind = .comma → commas = true)
      (hrest : Enclosed commas depth kinds) : Enclosed commas depth (kind :: kinds)

namespace Enclosed

variable {commas : Bool} {depth outer : Nat} {kind : TokenKind} {kinds more : List TokenKind}

lemma append (h : Enclosed commas depth kinds) (hmore : Enclosed commas outer more) :
    Enclosed commas (depth + outer) (kinds ++ more) := by
  induction h with
  | nil => rwa [Nat.zero_add]
  | @opener depth kind kinds hkind _ ih =>
    rw [Nat.add_right_comm] at ih
    exact .opener hkind ih
  | @closer depth kind kinds hkind _ ih =>
    rw [Nat.add_right_comm]
    exact .closer hkind ih
  | plain hopener hcloser hcomma _ ih =>
    exact .plain hopener hcloser (fun hdepth => hcomma (Nat.add_eq_zero_iff.mp hdepth).1) ih

/-- In front of a closing bracket commas do not count. -/
lemma inside (h : Enclosed true depth kinds) (hmore : Enclosed commas (outer + 1) more) :
    Enclosed commas (depth + (outer + 1)) (kinds ++ more) := by
  induction h with
  | nil => rwa [Nat.zero_add]
  | @opener depth kind kinds hkind _ ih =>
    rw [Nat.add_right_comm] at ih
    exact .opener hkind ih
  | @closer depth kind kinds hkind _ ih =>
    rw [Nat.add_right_comm]
    exact .closer hkind ih
  | plain hopener hcloser _ _ ih =>
    exact .plain hopener hcloser (fun hdepth => absurd hdepth (by omega)) ih

lemma weaken (h : Enclosed commas depth kinds) : Enclosed true depth kinds := by
  induction h with
  | nil => exact .nil
  | opener hkind _ ih => exact .opener hkind ih
  | closer hkind _ ih => exact .closer hkind ih
  | plain hopener hcloser _ _ ih => exact .plain hopener hcloser (fun _ _ => rfl) ih

lemma bracketed (h : Enclosed true 0 kinds) :
    Enclosed commas 0 (.openParen :: (kinds ++ [.closeParen])) := by
  have hclose : Enclosed commas (0 + 1) [.closeParen] := .closer rfl .nil
  have hinside := h.inside hclose
  rw [Nat.zero_add] at hinside
  exact .opener rfl hinside

lemma nil_iff : Enclosed commas depth [] ↔ depth = 0 := by
  constructor
  · rintro ⟨⟩
    rfl
  · rintro rfl
    exact .nil

lemma opener_iff (h : kind.isOpener) :
    Enclosed true depth (kind :: kinds) ↔ Enclosed true (depth + 1) kinds := by
  refine ⟨fun hkinds => ?_, .opener h⟩
  cases hkinds with
  | opener _ hrest => exact hrest
  | closer hcloser _ =>
    rw [TokenKind.isOpener_eq_false_of_isCloser hcloser] at h
    cases h
  | plain hopener _ _ _ =>
    rw [hopener] at h
    cases h

lemma closer_iff (h : kind.isCloser) :
    Enclosed true (depth + 1) (kind :: kinds) ↔ Enclosed true depth kinds := by
  refine ⟨fun hkinds => ?_, .closer h⟩
  cases hkinds with
  | opener hopener _ =>
    rw [TokenKind.isOpener_eq_false_of_isCloser h] at hopener
    cases hopener
  | closer _ hrest => exact hrest
  | plain _ hcloser _ _ =>
    rw [hcloser] at h
    cases h

/-- A bracket is closed only where one is open. -/
lemma not_closer (h : kind.isCloser) : ¬Enclosed true 0 (kind :: kinds) := by
  intro hkinds
  cases hkinds with
  | opener hopener _ =>
    rw [TokenKind.isOpener_eq_false_of_isCloser h] at hopener
    cases hopener
  | plain _ hcloser _ _ =>
    rw [hcloser] at h
    cases h

lemma plain_iff (hopener : kind.isOpener = false) (hcloser : kind.isCloser = false) :
    Enclosed true depth (kind :: kinds) ↔ Enclosed true depth kinds := by
  refine ⟨fun hkinds => ?_, .plain hopener hcloser fun _ _ => rfl⟩
  cases hkinds with
  | opener h _ =>
    rw [hopener] at h
    cases h
  | closer h _ =>
    rw [hcloser] at h
    cases h
  | plain _ _ _ hrest => exact hrest

end Enclosed

namespace Token

variable {commas : Bool} {depth : Nat} {t : Token} {part rest : List Token}

lemma Closes.of_enclosed (h : Enclosed commas depth (part.map kind)) : Closes depth part := by
  induction part generalizing depth with
  | nil =>
    cases h
    exact .nil
  | cons t part ih =>
    rw [List.map_cons] at h
    cases h with
    | opener hkind hrest => exact .opener hkind (ih hrest)
    | closer hkind hrest =>
      exact .closer (TokenKind.isOpener_eq_false_of_isCloser hkind) hkind (ih hrest)
    | plain hopener hcloser _ hrest => exact .plain hopener hcloser (ih hrest)

/-- The bracket around tokens that close their own brackets is closed by the token behind them. -/
lemma matchingClose?_enclosed {opener closer : Token} (hcloser : closer.kind.isCloser)
    (h : Enclosed commas 0 (part.map kind)) :
    matchingClose? (opener :: (part ++ closer :: rest)) = some (part.length + 1) := by
  have hopener := TokenKind.isOpener_eq_false_of_isCloser hcloser
  rw [matchingClose?, Closes.of_enclosed h 0 (closer :: rest), toClose?_cons,
    if_neg (by simp [hopener]), if_pos hcloser]
  simp

/-- The number of open brackets behind a token. -/
def depthBehind (depth : Nat) (t : Token) : Nat :=
  if t.kind.isOpener then depth + 1 else if t.kind.isCloser then depth - 1 else depth

/-- The parts of a list of tokens between the commas outside of all brackets, when `depth` brackets
are open before it. -/
def splitAtCommas (depth : Nat) : List Token → List (List Token)
  | [] => [[]]
  | t :: rest =>
    if t.kind = .comma && depth = 0 then [] :: splitAtCommas 0 rest
    else
      match splitAtCommas (t.depthBehind depth) rest with
      | [] => [[t]]
      | part :: parts => (t :: part) :: parts

/-- The arguments between the brackets of a call, where a comma may stand behind the last one. -/
def arguments (inner : List Token) : List (List Token) :=
  let parts := splitAtCommas 0 inner
  if parts.getLast? = some [] then parts.dropLast else parts

lemma depthBehind_opener (h : t.kind.isOpener) : t.depthBehind depth = depth + 1 :=
  if_pos h

lemma depthBehind_closer (h : t.kind.isCloser) : t.depthBehind (depth + 1) = depth := by
  rw [depthBehind, if_neg (by simp [TokenKind.isOpener_eq_false_of_isCloser h]), if_pos h,
    Nat.add_sub_cancel]

lemma depthBehind_plain (hopener : t.kind.isOpener = false) (hcloser : t.kind.isCloser = false) :
    t.depthBehind depth = depth := by
  rw [depthBehind, if_neg (by simp [hopener]), if_neg (by simp [hcloser])]

/-- Behind the first token of an enclosed list stands an enclosed list. -/
lemma enclosed_of_cons (h : Enclosed commas depth ((t :: part).map kind)) :
    Enclosed commas (t.depthBehind depth) (part.map kind) := by
  rw [List.map_cons] at h
  cases h with
  | opener hkind hrest => rwa [depthBehind_opener hkind]
  | closer hkind hrest => rwa [depthBehind_closer hkind]
  | plain hopener hcloser _ hrest => rwa [depthBehind_plain hopener hcloser]

lemma depth_ne_zero_of_comma (h : Enclosed false depth ((t :: part).map kind))
    (hkind : t.kind = .comma) : depth ≠ 0 := by
  rw [List.map_cons] at h
  cases h with
  | opener hopener _ =>
    rw [hkind] at hopener
    cases hopener
  | closer => exact Nat.succ_ne_zero _
  | plain _ _ hcomma _ => exact fun hdepth => Bool.false_ne_true (hcomma hdepth hkind)

lemma splitAtCommas_comma (h : t.kind = .comma) :
    splitAtCommas 0 (t :: rest) = [] :: splitAtCommas 0 rest := by
  rw [splitAtCommas, if_pos (by simp [h])]

lemma splitAtCommas_ne_nil : splitAtCommas depth rest ≠ [] := by
  induction rest generalizing depth with
  | nil => exact List.cons_ne_nil _ _
  | cons t rest ih =>
    rw [splitAtCommas]
    split
    · exact List.cons_ne_nil _ _
    · split <;> exact List.cons_ne_nil _ _

/-- A token that is no comma outside of all brackets belongs to the first part. -/
lemma exists_splitAtCommas_cons (rest : List Token) (h : t.kind = .comma → depth ≠ 0) :
    ∃ first others, splitAtCommas (t.depthBehind depth) rest = first :: others ∧
      splitAtCommas depth (t :: rest) = (t :: first) :: others := by
  obtain ⟨first, others, hrest⟩ := List.exists_cons_of_ne_nil
    (splitAtCommas_ne_nil : splitAtCommas (t.depthBehind depth) rest ≠ [])
  refine ⟨first, others, hrest, ?_⟩
  rw [splitAtCommas, if_neg (by simpa using h), hrest]

/-- Tokens without a comma outside of their brackets belong to one part. -/
lemma splitAtCommas_append (h : Enclosed false depth (part.map kind)) :
    ∃ first others, splitAtCommas 0 rest = first :: others ∧
      splitAtCommas depth (part ++ rest) = (part ++ first) :: others := by
  induction part generalizing depth with
  | nil =>
    cases h
    obtain ⟨first, others, hrest⟩ :=
      List.exists_cons_of_ne_nil (splitAtCommas_ne_nil : splitAtCommas 0 rest ≠ [])
    exact ⟨first, others, hrest, hrest⟩
  | cons t part ih =>
    obtain ⟨first, others, hrest, hpart⟩ := ih (enclosed_of_cons h)
    obtain ⟨first', others', hfirst, hsplit⟩ :=
      exists_splitAtCommas_cons (part ++ rest) (depth_ne_zero_of_comma h)
    rw [hpart] at hfirst
    obtain ⟨rfl, rfl⟩ := List.cons.inj hfirst
    exact ⟨first, others, hrest, hsplit⟩

/-- Tokens that are one part have no comma outside of their brackets. -/
lemma enclosed_of_length_splitAtCommas (h : Enclosed true depth (part.map kind))
    (hlength : (splitAtCommas depth part).length ≤ 1) : Enclosed false depth (part.map kind) := by
  induction part generalizing depth with
  | nil =>
    cases h
    exact .nil
  | cons t part ih =>
    have hcomma : t.kind = .comma → depth ≠ 0 := by
      rintro hkind rfl
      have hne : (splitAtCommas 0 part).length ≠ 0 :=
        mt List.length_eq_zero_iff.mp splitAtCommas_ne_nil
      rw [splitAtCommas_comma hkind, List.length_cons] at hlength
      omega
    obtain ⟨first, others, hrest, hsplit⟩ := exists_splitAtCommas_cons part hcomma
    have hpart := ih (enclosed_of_cons h) (by
      rw [hrest]
      rwa [hsplit] at hlength)
    rw [List.map_cons] at h ⊢
    cases h with
    | opener hkind _ =>
      rw [depthBehind_opener hkind] at hpart
      exact .opener hkind hpart
    | closer hkind _ =>
      rw [depthBehind_closer hkind] at hpart
      exact .closer hkind hpart
    | plain hopener hcloser _ _ =>
      rw [depthBehind_plain hopener hcloser] at hpart
      exact .plain hopener hcloser (fun hdepth hkind => absurd hdepth (hcomma hkind)) hpart

end Token

end FieldComposition
