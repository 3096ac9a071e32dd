import FieldComposition.Toml.Document
import Mathlib

/-!
# Reading documents

What a reader leaves is the end of the text that it reads from, and besides a malformed text only an
integer of the text with too many digits keeps it from reading (`Reader.Ensures`). This holds of the
readers of all parts of a document, and so of a whole one (`Draft.isIn_of_read_eq_error`).
-/

namespace FieldComposition.Toml

/-- A fault that reading from a text may end in: an integer in the text has more digits than are
converted. -/
def Fault.IsIn (text : List Char) : Fault → Prop
  | malformed => True
  | overlong digits => maxDigits < digits ∧ digits ≤ text.length

/-- Reading from a text has ended with a value of which `P` holds and left the end of the text, or
it has ended in a fault of the text. -/
def Ends {α : Type} {n : Nat} (text : List Char) (P : α → Prop) :
    Except Fault (Reading Char α n) → Prop
  | .ok r => P r.value ∧ r.rest <:+ text
  | .error fault => fault.IsIn text

namespace Ends

variable {α β : Type} {m n : Nat} {text : List Char} {P : α → Prop} {Q : β → Prop}
  {result : Except Fault (Reading Char α m)}

lemma weaken (h : Ends text P result) (hmn : m ≤ n) :
    Ends text P (result.map (·.weaken hmn)) := by
  cases result with
  | error fault => exact h
  | ok r => exact h

lemma map {f : α → β} (h : Ends text P result) (hf : ∀ a, P a → Q (f a)) (hmn : m ≤ n) :
    Ends text Q (result.map fun r => (r.map f).weaken hmn) := by
  cases result with
  | error fault => exact h
  | ok r => exact ⟨hf r.value h.1, h.2⟩

lemma ite {c : Prop} [Decidable c] {other : Except Fault (Reading Char α m)}
    (h : c → Ends text P result) (hother : ¬c → Ends text P other) :
    Ends text P (if c then result else other) := by
  by_cases hc : c
  · rw [if_pos hc]
    exact h hc
  · rw [if_neg hc]
    exact hother hc

end Ends

namespace Reader

variable {α β : Type} {text : List Char} {p : Reader α} {P : α → Prop} {Q : β → Prop}

/-- From the end of a text, a reader gives a value of which `P` holds and leaves the end of the
text, or it ends in a fault of the text. -/
def Ensures (text : List Char) (p : Reader α) (P : α → Prop) : Prop :=
  ∀ cs, cs <:+ text → Ends text P (p cs)

namespace Ensures

lemma isIn {cs : List Char} {fault : Fault} (hp : Ensures text p P) (hcs : cs <:+ text)
    (h : p cs = .error fault) : fault.IsIn text := by
  have hends := hp cs hcs
  rwa [h] at hends

lemma holds {cs : List Char} {r : Reading Char α cs.length} (hp : Ensures text p P)
    (hcs : cs <:+ text) (h : p cs = .ok r) : P r.value := by
  have hends := hp cs hcs
  rw [h] at hends
  exact hends.1

lemma rest_suffix {cs : List Char} {r : Reading Char α cs.length} (hp : Ensures text p P)
    (hcs : cs <:+ text) (h : p cs = .ok r) : r.rest <:+ text := by
  have hends := hp cs hcs
  rw [h] at hends
  exact hends.2

lemma pure {a : α} (h : P a) : Ensures text (pure a) P :=
  fun _ hcs => ⟨h, hcs⟩

lemma bind {f : α → Reader β} (hp : Ensures text p P) (hf : ∀ a, P a → Ensures text (f a) Q) :
    Ensures text (p >>= f) Q := by
  intro cs hcs
  change Ends text Q (Reader.bind p f cs)
  rw [Reader.bind]
  cases hread : p cs with
  | error fault => exact hp.isIn hcs hread
  | ok r =>
    have hrest := hf r.value (hp.holds hcs hread) r.rest (hp.rest_suffix hcs hread)
    exact hrest.weaken r.length_le

lemma mono {Q : α → Prop} (hp : Ensures text p P) (h : ∀ a, P a → Q a) : Ensures text p Q := by
  intro cs hcs
  cases hread : p cs with
  | error fault => exact hp.isIn hcs hread
  | ok r => exact ⟨h r.value (hp.holds hcs hread), hp.rest_suffix hcs hread⟩

lemma map {f : α → β} (hp : Ensures text p P) : Ensures text (f <$> p) fun _ => True :=
  hp.bind fun _ _ => pure trivial

lemma ite {c : Prop} [Decidable c] {q : Reader α} (hp : c → Ensures text p P)
    (hq : ¬c → Ensures text q P) : Ensures text (if c then p else q) P := by
  by_cases hc : c
  · rw [if_pos hc]
    exact hp hc
  · rw [if_neg hc]
    exact hq hc

lemma failWith {fault : Fault} (h : fault.IsIn text) :
    Ensures text (failWith fault : Reader α) P :=
  fun _ _ => h

lemma fail : Ensures text (fail : Reader α) P :=
  failWith trivial

lemma failWith_bind {fault : Fault} {f : α → Reader β} (h : fault.IsIn text) :
    Ensures text ((Reader.failWith fault : Reader α) >>= f) Q :=
  fun _ _ => h

lemma fail_bind {f : α → Reader β} : Ensures text ((Reader.fail : Reader α) >>= f) Q :=
  failWith_bind trivial

lemma peek : Ensures text peek fun _ => True :=
  fun _ hcs => ⟨trivial, hcs⟩

lemma take {n : Nat} : Ensures text (take n) fun _ => True :=
  fun cs hcs => ⟨trivial, (List.drop_suffix n cs).trans hcs⟩

lemma skip {n : Nat} : Ensures text (skip n) fun _ => True :=
  take.bind fun _ _ => pure trivial

lemma takeWhile {q : Char → Bool} : Ensures text (takeWhile q) fun _ => True :=
  fun _ hcs => ⟨trivial, (List.dropWhile_suffix q).trans hcs⟩

lemma sees {part : List Char} : Ensures text (sees part) fun _ => True :=
  fun _ hcs => ⟨trivial, hcs⟩

lemma accepts {part : List Char} : Ensures text (accepts part) fun _ => True :=
  sees.bind fun _ _ => ite (fun _ => skip.bind fun _ _ => pure trivial) fun _ => pure trivial

lemma expect {part : List Char} : Ensures text (expect part) fun _ => True :=
  accepts.bind fun _ _ => ite (fun _ => pure trivial) fun _ => fail

lemma attempt (hp : Ensures text p fun _ => True) : Ensures text (attempt p) fun _ => True := by
  intro cs hcs
  rw [Reader.attempt]
  cases hread : p cs with
  | ok r => exact ⟨trivial, hp.rest_suffix hcs hread⟩
  | error fault =>
    cases fault with
    | malformed => exact ⟨trivial, hcs⟩
    | overlong digits => exact hp.isIn hcs hread

lemma firstOf {ps : List (Reader α)} (hps : ∀ p ∈ ps, Ensures text p P) :
    Ensures text (firstOf ps) P := by
  induction ps with
  | nil => exact fail
  | cons p ps ih =>
    intro cs hcs
    have hp := hps p List.mem_cons_self
    rw [Reader.firstOf]
    dsimp only
    cases hread : p cs with
    | ok r => exact ⟨hp.holds hcs hread, hp.rest_suffix hcs hread⟩
    | error fault =>
      cases fault with
      | malformed => exact ih (fun q hq => hps q (List.mem_cons_of_mem p hq)) cs hcs
      | overlong digits => exact hp.isIn hcs hread

lemma withText (hp : Ensures text p fun _ => True) : Ensures text (withText p) fun _ => True := by
  intro cs hcs
  rw [Reader.withText]
  cases hread : p cs with
  | error fault => exact hp.isIn hcs hread
  | ok r => exact ⟨trivial, hp.rest_suffix hcs hread⟩

/-! ### Layout, strings and keys -/

lemma suffix_of_cons {c : Char} {rest : List Char} (h : c :: rest <:+ text) : rest <:+ text :=
  (List.suffix_cons c rest).trans h

lemma spaces : Ensures text spaces fun _ => True :=
  takeWhile.bind fun _ _ => pure trivial

lemma comment : Ensures text comment fun _ => True :=
  takeWhile.bind fun _ _ => ite (fun _ => fail) fun _ => pure trivial

lemma arrayLayout {inComment : Bool} : Ensures text (arrayLayout inComment) fun _ => True := by
  intro cs hcs
  induction cs generalizing inComment with
  | nil => exact ⟨trivial, hcs⟩
  | cons c rest ih =>
    have hrest := suffix_of_cons hcs
    rw [Toml.arrayLayout]
    refine Ends.ite (fun _ => ?_) fun _ => ?_
    · refine Ends.ite (fun _ => (ih hrest).weaken _) fun _ => ?_
      exact Ends.ite (fun _ => trivial) fun _ => (ih hrest).weaken _
    · refine Ends.ite (fun _ => (ih hrest).weaken _) fun _ => ?_
      exact Ends.ite (fun _ => (ih hrest).weaken _) fun _ => ⟨trivial, hcs⟩

lemma basicRest {inLines : Bool} : Ensures text (basicRest inLines) fun _ => True := by
  intro cs hcs
  fun_induction Toml.basicRest inLines cs with
  | case1 => trivial
  | case2 => exact ⟨trivial, suffix_of_cons hcs⟩
  | case3 => exact ⟨trivial, (List.drop_suffix 2 _).trans (suffix_of_cons hcs)⟩
  | case4 _ _ _ ih => exact (ih (suffix_of_cons hcs)).map (fun _ h => h) _
  | case5 => trivial
  | case6 => trivial
  | case7 _ _ _ _ hescape _ _ ih =>
    have hleft := (escape?_suffix hescape).trans (suffix_of_cons (suffix_of_cons hcs))
    exact (ih hleft).map (fun _ h => h) _
  | case8 => trivial
  | case9 _ _ _ _ _ ih => exact (ih (suffix_of_cons hcs)).map (fun _ h => h) _

lemma literalRest : Ensures text literalRest fun _ => True :=
  takeWhile.bind fun _ _ => expect.bind fun _ _ => ite (fun _ => fail_bind) fun _ => pure trivial

lemma literalLinesRest : Ensures text literalLinesRest fun _ => True := by
  intro cs hcs
  fun_induction Toml.literalLinesRest cs with
  | case1 => trivial
  | case2 => exact ⟨trivial, (List.drop_suffix 2 _).trans (suffix_of_cons hcs)⟩
  | case3 => trivial
  | case4 _ _ _ _ ih => exact (ih (suffix_of_cons hcs)).map (fun _ h => h) _

lemma lastQuotes {quote : Char} : Ensures text (lastQuotes quote) fun _ => True :=
  accepts.bind fun _ _ => ite (fun _ => pure trivial) fun _ =>
    accepts.bind fun _ _ => ite (fun _ => pure trivial) fun _ => pure trivial

lemma quotedString {quote : Char} {lines line : Reader (List Char)}
    (hlines : Ensures text lines fun _ => True) (hline : Ensures text line fun _ => True) :
    Ensures text (quotedString quote lines line) fun _ => True := by
  refine sees.bind fun _ _ => ite (fun _ => ?_) fun _ => ?_
  · exact skip.bind fun _ _ => accepts.bind fun _ _ => hlines.bind fun _ _ =>
      lastQuotes.bind fun _ _ => pure trivial
  · exact skip.bind fun _ _ => hline.bind fun _ _ => pure trivial

lemma lineString {body : Reader (List Char)} (hbody : Ensures text body fun _ => True) :
    Ensures text (lineString body) fun _ => True :=
  skip.bind fun _ _ => hbody.bind fun _ _ => pure trivial

lemma keyPart : Ensures text keyPart fun _ => True := by
  refine peek.bind fun next _ => ?_
  split
  · exact lineString basicRest
  · exact lineString literalRest
  · exact takeWhile.bind fun _ _ => ite (fun _ => fail_bind) fun _ => pure trivial

lemma keyParts : Ensures text keyParts fun _ => True := by
  intro cs hcs
  have hpart : Ensures text (do Toml.spaces; let part ← Toml.keyPart; Toml.spaces; return part)
      fun _ => True :=
    spaces.bind fun _ _ => keyPart.bind fun _ _ => spaces.bind fun _ _ => pure trivial
  fun_induction Toml.keyParts cs with
  | case1 => exact ⟨trivial, hcs⟩
  | case2 rest fault hread => exact hpart.isIn (suffix_of_cons hcs) hread
  | case3 rest r hread ih =>
    exact (ih (hpart.rest_suffix (suffix_of_cons hcs) hread)).map (fun _ h => h) _
  | case4 => exact ⟨trivial, hcs⟩

lemma key : Ensures text key fun _ => True :=
  keyPart.bind fun _ _ => spaces.bind fun _ _ => keyParts.bind fun _ _ => pure trivial

lemma keyAndEquals : Ensures text keyAndEquals fun _ => True :=
  key.bind fun _ _ => expect.bind fun _ _ => spaces.bind fun _ _ => pure trivial

/-! ### Numbers and moments -/

/-- Digits after a first one are always read, and each of them takes a character. -/
lemma exists_moreDigits_eq (isDigit : Char → Bool) (cs : List Char) :
    ∃ r, moreDigits isDigit cs = .ok r ∧ r.value.length + r.rest.length ≤ cs.length ∧
      r.rest <:+ cs := by
  fun_induction moreDigits isDigit cs with
  | case2 c rest _ ih =>
    obtain ⟨r, hread, hlength, hrest⟩ := ih
    rw [hread]
    refine ⟨_, rfl, ?_, hrest.trans (List.suffix_cons c rest)⟩
    change (c :: r.value).length + r.rest.length ≤ (c :: rest).length
    simp only [List.length_cons]
    omega
  | case3 c _ d more _ ih =>
    obtain ⟨r, hread, hlength, hrest⟩ := ih
    rw [hread]
    refine ⟨_, rfl, ?_, hrest.trans ((List.suffix_cons d more).trans (List.suffix_cons c _))⟩
    change (d :: r.value).length + r.rest.length ≤ (c :: d :: more).length
    simp only [List.length_cons]
    omega
  | _ => exact ⟨_, rfl, Nat.zero_add _ ▸ Nat.le_refl _, List.suffix_refl _⟩

lemma digits {isDigit : Char → Bool} :
    Ensures text (digits isDigit) fun run => run.length ≤ text.length := by
  refine peek.bind fun next _ => ?_
  have hmore : Ensures text (moreDigits isDigit) fun run => run.length ≤ text.length := by
    intro cs hcs
    obtain ⟨r, hread, hlength, hrest⟩ := exists_moreDigits_eq isDigit cs
    rw [hread]
    exact ⟨by have := hcs.length_le; omega, hrest.trans hcs⟩
  cases next with
  | none => exact fail
  | some c => exact ite (fun _ => hmore) fun _ => fail

lemma radixInteger {mark : Char} {base : Nat} {isDigit : Char → Bool} :
    Ensures text (radixInteger mark base isDigit) fun _ => True :=
  expect.bind fun _ _ => digits.bind fun _ _ => pure trivial

lemma sign : Ensures text sign fun _ => True :=
  accepts.bind fun _ _ => ite (fun _ => pure trivial) fun _ =>
    accepts.bind fun _ _ => pure trivial

/-- A whole part with too many digits takes up as many characters; the part that is only a zero is
not such. -/
lemma wholePart :
    Ensures text wholePart fun run => maxDigits < run.length → run.length ≤ text.length :=
  accepts.bind fun _ _ => ite
    (fun _ => pure fun h => absurd h (by decide)) fun _ => digits.mono fun _ h _ => h

lemma fractionPart : Ensures text fractionPart fun _ => True :=
  expect.bind fun _ _ => digits.mono fun _ _ => trivial

lemma exponentPart : Ensures text exponentPart fun _ => True := by
  have hsize : Ensures text (do
      let negative ← Toml.sign
      let size : Int := Number.digitsValue (← Toml.digits Char.isDigit)
      return if negative then -size else size) fun _ => True :=
    sign.bind fun _ _ => digits.bind fun _ _ => pure trivial
  exact accepts.bind fun _ _ => ite (fun _ => hsize) fun _ => expect.bind fun _ _ => hsize

lemma decimalInteger {negative : Bool} {run : List Char}
    (h : maxDigits < run.length → run.length ≤ text.length) :
    Ensures text (decimalInteger negative run) fun _ => True :=
  ite (fun hlong => failWith_bind ⟨hlong, h hlong⟩) fun _ => pure trivial

lemma decimal : Ensures text decimal fun _ => True :=
  sign.bind fun _ _ => wholePart.bind fun _ hwhole => fractionPart.attempt.bind fun _ _ =>
    exponentPart.attempt.bind fun _ _ => ite (fun _ => decimalInteger hwhole) fun _ =>
      pure trivial

lemma specialReal : Ensures text specialReal fun _ => True :=
  sign.bind fun _ _ => accepts.bind fun _ _ => ite (fun _ => pure trivial) fun _ =>
    expect.bind fun _ _ => pure trivial

lemma number : Ensures text number fun _ => True := by
  refine firstOf fun p hp => ?_
  simp only [List.mem_cons, List.not_mem_nil, or_false] at hp
  obtain rfl | rfl | rfl | rfl | rfl := hp
  · exact radixInteger
  · exact radixInteger
  · exact radixInteger
  · exact decimal
  · exact specialReal

lemma numberIn {width low high : Nat} :
    Ensures text (numberIn width low high) fun _ => True :=
  take.bind fun _ _ => ite (fun _ => pure trivial) fun _ => fail_bind

lemma timeOfDay : Ensures text timeOfDay fun _ => True :=
  numberIn.bind fun _ _ => expect.bind fun _ _ => numberIn.bind fun _ _ => expect.bind fun _ _ =>
    numberIn.bind fun _ _ => Ensures.bind
      (attempt <| expect.bind fun _ _ => takeWhile.bind fun _ _ =>
        ite (fun _ => fail) fun _ => pure trivial)
      fun _ _ => pure trivial

lemma zone : Ensures text zone fun _ => True := by
  have hoffset : Ensures text (do
      let _ ← Toml.numberIn 2 0 23
      Reader.expect [':']
      let _ ← Toml.numberIn 2 0 59) fun _ => True :=
    numberIn.bind fun _ _ => expect.bind fun _ _ => numberIn.bind fun _ _ => pure trivial
  exact accepts.bind fun _ _ => ite (fun _ => pure trivial) fun _ =>
    accepts.bind fun _ _ => ite (fun _ => pure trivial) fun _ =>
      accepts.bind fun _ _ => ite (fun _ => hoffset) fun _ => expect.bind fun _ _ => hoffset

lemma timeAfterDate : Ensures text timeAfterDate fun _ => True := by
  have htime : Ensures text (do Toml.timeOfDay; let _ ← Reader.attempt Toml.zone) fun _ => True :=
    timeOfDay.bind fun _ _ => zone.attempt.bind fun _ _ => pure trivial
  exact accepts.bind fun _ _ => ite (fun _ => htime) fun _ =>
    accepts.bind fun _ _ => ite (fun _ => htime) fun _ => expect.bind fun _ _ => htime

lemma date : Ensures text date fun _ => True :=
  numberIn.bind fun _ _ => expect.bind fun _ _ => numberIn.bind fun _ _ => expect.bind fun _ _ =>
    numberIn.bind fun _ _ => timeAfterDate.attempt.bind fun _ _ => pure trivial

lemma moment? : Ensures text moment? fun _ => True := by
  refine date.withText.attempt.bind fun read _ => ?_
  cases read with
  | none => exact timeOfDay.withText.attempt.bind fun _ _ => pure trivial
  | some read => exact ite (fun _ => pure trivial) fun _ => fail

/-! ### Values -/

lemma scalar : Ensures text scalar fun _ => True := by
  refine peek.bind fun next _ => ?_
  split
  · exact (quotedString basicRest basicRest).bind fun _ _ => pure trivial
  · exact (quotedString literalLinesRest literalRest).bind fun _ _ => pure trivial
  · refine accepts.bind fun _ _ => ite (fun _ => pure trivial) fun _ =>
      accepts.bind fun _ _ => ite (fun _ => pure trivial) fun _ =>
        moment?.bind fun moment _ => ?_
    cases moment with
    | none => exact number
    | some moment => exact pure trivial

variable {cs : List Char}

lemma ends_value (hcs : cs <:+ text)
    (hitems : ∀ left, left <:+ text → left.length < cs.length →
      Ends text (fun _ => True) (items [] left))
    (hpairs : ∀ left, left <:+ text → left.length < cs.length →
      Ends text (fun _ => True) (pairs {} left)) :
    Ends text (fun _ => True) (Toml.value cs) := by
  rw [Toml.value.eq_def]
  split
  · trivial
  · rename_i c rest
    have hrest := suffix_of_cons hcs
    refine Ends.ite (fun _ => ?_) fun _ => Ends.ite (fun _ => ?_) fun _ => scalar _ hcs
    · split
      · rename_i fault hread
        exact arrayLayout.isIn hrest hread
      · trivial
      · rename_i d more h hread
        have hleft := arrayLayout.rest_suffix hrest hread
        exact Ends.ite (fun _ => ⟨trivial, suffix_of_cons hleft⟩) fun _ =>
          (hitems _ hleft (Nat.lt_succ_of_le h)).map (fun _ h => h) _
    · split
      · rename_i fault hread
        exact spaces.isIn hrest hread
      · trivial
      · rename_i d more h hread
        have hleft := spaces.rest_suffix hrest hread
        exact Ends.ite (fun _ => ⟨trivial, suffix_of_cons hleft⟩) fun _ =>
          (hpairs _ hleft (Nat.lt_succ_of_le h)).map (fun _ h => h) _

lemma ends_items (hvalue : Ends text (fun _ => True) (Toml.value cs))
    (hitems : ∀ before left, left <:+ text → left.length < cs.length →
      Ends text (fun _ => True) (items before left)) (before : List Value) :
    Ends text (fun _ => True) (items before cs) := by
  rw [items.eq_def]
  split
  · rename_i fault hread
    rw [hread] at hvalue
    exact hvalue
  · rename_i v afterValue h hread
    rw [hread] at hvalue
    split
    · rename_i fault hread
      exact arrayLayout.isIn hvalue.2 hread
    · trivial
    · rename_i c rest h' hread
      have hrest := suffix_of_cons (arrayLayout.rest_suffix hvalue.2 hread)
      refine Ends.ite (fun _ => ⟨trivial, hrest⟩) fun _ => Ends.ite (fun _ => ?_) fun _ => trivial
      split
      · rename_i fault hread
        exact arrayLayout.isIn hrest hread
      · trivial
      · rename_i d more h'' hread
        have hleft := arrayLayout.rest_suffix hrest hread
        refine Ends.ite (fun _ => ⟨trivial, suffix_of_cons hleft⟩) fun _ => ?_
        refine (hitems _ _ hleft ?_).weaken _
        simp only [List.length_cons] at h h' h'' ⊢
        omega

lemma ends_pairs (hcs : cs <:+ text)
    (hvalue : ∀ left, left <:+ text → left.length ≤ cs.length →
      Ends text (fun _ => True) (Toml.value left))
    (hpairs : ∀ before left, left <:+ text → left.length < cs.length →
      Ends text (fun _ => True) (pairs before left)) (before : InlineTable) :
    Ends text (fun _ => True) (pairs before cs) := by
  rw [pairs.eq_def]
  split
  · rename_i fault hread
    exact keyAndEquals.isIn hcs hread
  · rename_i path atValue hk hread
    have hvalue := hvalue atValue (keyAndEquals.rest_suffix hcs hread) hk
    split
    · rename_i fault hread
      rw [hread] at hvalue
      exact hvalue
    · rename_i v afterValue hv hread
      rw [hread] at hvalue
      split
      · rename_i table _ c rest h _ hread
        have hrest := suffix_of_cons (spaces.rest_suffix hvalue.2 hread)
        refine Ends.ite (fun _ => ⟨trivial, hrest⟩) fun _ => Ends.ite (fun _ => ?_) fun _ => trivial
        split
        · rename_i fault hread
          exact spaces.isIn hrest hread
        · rename_i left h' hread
          refine (hpairs _ _ (spaces.rest_suffix hrest hread) ?_).weaken _
          simp only [List.length_cons] at h h' ⊢
          omega
      · trivial

/-- The readers of values call one another, on shorter texts or, before the first value of an array,
on the same one: the induction is on a bound for the length. -/
lemma ends_value_items_pairs (n : Nat) (cs : List Char) (hcs : cs <:+ text) (hn : cs.length < n) :
    Ends text (fun _ => True) (Toml.value cs) ∧
      (∀ before, Ends text (fun _ => True) (items before cs)) ∧
      ∀ before, Ends text (fun _ => True) (pairs before cs) := by
  induction n generalizing cs with
  | zero => omega
  | succ n ih =>
    have hvalue : ∀ left, left <:+ text → left.length ≤ n →
        Ends text (fun _ => True) (Toml.value left) := fun left hleft hlen =>
      ends_value hleft (fun more hmore h => (ih more hmore (by omega)).2.1 [])
        fun more hmore h => (ih more hmore (by omega)).2.2 {}
    refine ⟨hvalue cs hcs (by omega), ?_, ?_⟩
    · exact ends_items (hvalue cs hcs (by omega)) fun before left hleft h =>
        (ih left hleft (by omega)).2.1 before
    · exact ends_pairs hcs (fun left hleft h => hvalue left hleft (by omega))
        fun before left hleft h => (ih left hleft (by omega)).2.2 before

lemma value : Ensures text value fun _ => True :=
  fun cs hcs => (ends_value_items_pairs _ cs hcs (Nat.lt_succ_self _)).1

/-! ### Lines -/

lemma headerStatement : Ensures text headerStatement fun _ => True :=
  accepts.bind fun _ _ => ite
    (fun _ => spaces.bind fun _ _ => key.bind fun _ _ => expect.bind fun _ _ => pure trivial)
    fun _ => skip.bind fun _ _ => spaces.bind fun _ _ => key.bind fun _ _ => expect.bind
      fun _ _ => pure trivial

lemma pairStatement : Ensures text pairStatement fun _ => True :=
  keyAndEquals.bind fun _ _ => value.bind fun _ _ => pure trivial

lemma lineStatement : Ensures text lineStatement fun _ => True := by
  refine spaces.bind fun _ _ => peek.bind fun next _ => ?_
  have hend : ∀ statement, Ensures text (do
      Toml.spaces
      if ← Reader.sees ['#'] then Toml.comment
      return statement : Reader (Option Statement)) fun _ => True := fun statement =>
    spaces.bind fun _ _ => sees.bind fun _ _ =>
      ite (fun _ => comment.bind fun _ _ => pure trivial) fun _ => pure trivial
  split
  · exact bind (P := fun _ => True) (pure trivial) fun statement _ => hend statement
  · exact bind (P := fun _ => True) (pure trivial) fun statement _ => hend statement
  · exact bind (P := fun _ => True) (pure trivial) fun statement _ => hend statement
  · exact headerStatement.map.bind fun statement _ => hend statement
  · exact pairStatement.map.bind fun statement _ => hend statement

end Ensures

end Reader

/-- Reading lines from the end of a text ends in no faults but those of the text. -/
theorem Draft.isIn_of_read_eq_error {text cs : List Char} {d : Draft} {fault : Fault}
    (hcs : cs <:+ text) (h : d.read cs = .error fault) : fault.IsIn text := by
  fun_induction Draft.read d cs with
  | case1 d cs fault hline =>
    injection h with h
    exact h ▸ Reader.Ensures.lineStatement.isIn hcs hline
  | case4 d cs statement _ _ rest _ _ hline ih =>
    have hrest := Reader.Ensures.lineStatement.rest_suffix hcs hline
    exact ih (Reader.Ensures.suffix_of_cons hrest) h
  | case3 => cases h
  | _ =>
    injection h with h
    exact h ▸ trivial

/-- The integer that keeps a text from being read has too many digits, and they stand in the
text. -/
theorem lt_and_le_of_parse_eq_overlong {text : String} {digits : Nat}
    (h : parse text = .error (.overlong digits)) :
    maxDigits < digits ∧ digits ≤ text.toList.length := by
  rw [parse] at h
  cases hread : Draft.read {} text.toList with
  | error fault =>
    rw [hread] at h
    have hin := Draft.isIn_of_read_eq_error (List.suffix_refl _) hread
    injection h with h
    rwa [h] at hin
  | ok d =>
    rw [hread] at h
    cases h

end FieldComposition.Toml
