import FieldComposition.Proofs.FollowedText
import FieldComposition.Proofs.MovedTokens
import FieldComposition.Proofs.ReplacedTokens
import FieldComposition.Proofs.WholeFieldList

/-!
# Field lists one behind the other

Two field lists with a comma on a line of its own between them are read as one list: the items of
the first one, and behind them those of the second one, which stand further down
(`Composition.ofText_append`).
-/

namespace FieldComposition

/-- The position as many lines further down. -/
def Position.below (n : Nat) (p : Position) : Position :=
  ⟨p.line + n, p.column⟩

def Composition.below (n : Nat) (c : Composition) : Composition :=
  c.mapPositions (.below n)

lemma Position.step_below (n : Nat) (p : Position) (c : Char) :
    (p.below n).step c = (p.step c).below n := by
  unfold step below
  split
  · rw [Int.add_right_comm]
  · rfl

namespace Text

/-- A text, a comma on a line of its own, and another text. -/
def joined (text₁ text₂ : String) : String :=
  text₁ ++ "\n,\n" ++ text₂

/-- How far down the second text starts. -/
def linesBefore (text : String) : Nat :=
  text.toList.count '\n' + 2

end Text

open Text (joined linesBefore)

variable {host : Host} {text₁ text₂ : String} {tokens₁ tokens₂ : Tokens}

/-- The token of the second text in both together. -/
def Token.behind (text : String) : Token → Token :=
  move 0 (text.length + 3) (.below (linesBefore text))

/-- The tokens of two texts with a comma between them. -/
lemma Tokens.exists_ofText_joined (h₁ : ofText host text₁ = .ok tokens₁)
    (h₂ : ofText host text₂ = .ok tokens₂) :
    ∃ comma eof, comma.kind = .comma ∧ ofText host (joined text₁ text₂) =
      .ok ⟨tokens₁.body ++ comma :: tokens₂.body.map (Token.behind text₁), eof⟩ := by
  obtain ⟨parts₁, hparts₁, hbody₁⟩ := Lexes.exists_of_scan h₁
  obtain ⟨parts₂, hparts₂, hbody₂⟩ := Lexes.exists_of_scan h₂
  have hsecond : Lexes host [] ('\n' :: text₂.toList) (⟨none, ['\n']⟩ :: parts₂) :=
    hparts₂.layout_cons rfl
  have hcomma : Lexes host ('\n' :: text₂.toList ++ []) [','] [⟨some .comma, [',']⟩] :=
    .sign (by decide) fun _ _ => Lexeme.goesOn_mark (by decide)
  have hfirst : Lexes host (('\n' :: ',' :: '\n' :: text₂.toList) ++ []) text₁.toList parts₁ :=
    hparts₁.append_newline
  have hall := hfirst.append ((hcomma.append hsecond).layout_cons rfl)
  have htext : (joined text₁ text₂).toList =
      text₁.toList ++ '\n' :: ',' :: '\n' :: text₂.toList := by simp [joined]
  rw [← htext] at hall
  obtain ⟨tokens, htokens, hbody⟩ := exists_ofText_of_lexes hall
  let p := (Position.start.advance text₁.toList).step '\n'
  let comma : Token := ⟨.comma, ",", text₁.length + 1, text₁.length + 2, p⟩
  have hstart : (p.step ',').step '\n' = Position.start.below (linesBefore text₁) := by
    have hline : (Position.start.advance text₁.toList).line = 1 + text₁.toList.count '\n' :=
      Position.line_advance .start _
    have hbelow : Position.start.below (linesBefore text₁) =
        ⟨1 + (text₁.toList.count '\n' + 2 : Nat), 1⟩ := rfl
    rw [hbelow]
    simp only [p, Position.step, hline]
    simp
    omega
  have hmoved : Stretch.tokens (text₁.length + 3 + 0) (Position.start.below (linesBefore text₁))
      parts₂ = tokens₂.body.map (Token.behind text₁) := by
    rw [hbody₂]
    exact Stretch.tokens_move (P := fun _ => True)
      (fun p c _ => ⟨trivial, Position.step_below _ p c⟩) trivial
  have hmiddle : Stretch.tokens text₁.length (Position.start.advance text₁.toList)
      (⟨none, ['\n']⟩ :: ([⟨some .comma, [',']⟩] ++ ⟨none, ['\n']⟩ :: parts₂)) =
        comma :: tokens₂.body.map (Token.behind text₁) := by
    rw [← hmoved, ← hstart]
    rfl
  rw [Stretch.tokens_append, ← hbody₁, hparts₁.text_eq, Nat.zero_add, String.length_toList,
    hmiddle] at hbody
  exact ⟨comma, tokens.eof, rfl, htokens.trans (by rw [← hbody])⟩

/-- The last token of the text is a comma. -/
def EndsInComma (host : Host) (text : String) : Prop :=
  ∃ tokens, Tokens.ofText host text = .ok tokens ∧
    tokens.body.getLast?.map Token.kind = some .comma

instance (host : Host) (text : String) : Decidable (EndsInComma host text) :=
  match h : Tokens.ofText host text with
  | .error _ => .isFalse fun ⟨_, htokens, _⟩ => nomatch h.symm.trans htokens
  | .ok tokens =>
    decidable_of_iff (tokens.body.getLast?.map Token.kind = some .comma)
      ⟨fun hlast => ⟨tokens, h, hlast⟩, fun ⟨_, htokens, hlast⟩ =>
        Except.ok.inj (h.symm.trans htokens) ▸ hlast⟩

variable {allowBase allowMut : Bool} {c₁ c₂ : Composition}

/-- A text that is no pair of braces is read as a list without braces. -/
lemma TextPhrase.Reads.exists_list {text : String} {p : TextPhrase}
    (h : p.Reads host allowBase allowMut text) (hbare : ¬IsBracePair host text) :
    ∃ list : ListPhrase, list.IsWellFormed host { close := .eof, allowBase, allowMut } ∧
      p = ⟨none, list⟩ := by
  obtain ⟨eof, htokens⟩ := h.tokens_eq_body
  have hpair := h.wellFormed.isBracePair_eq
  obtain ⟨braces, list⟩ := p
  cases braces with
  | none => exact ⟨list, h.wellFormed.list, rfl⟩
  | some b =>
    obtain ⟨hopen, hclose⟩ := Bool.and_eq_true_iff.mp hpair
    exact absurd ⟨_, htokens, beq_iff_eq.mp hopen, beq_iff_eq.mp hclose⟩ hbare

namespace CommaList

variable {α : Type} {l more : CommaList α} {a : α} {comma : Token} {ok : α → Prop}

/-- A list that ends with `a`, a comma and another list. -/
def join (l : CommaList α) (a : α) (comma : Token) (more : CommaList α) : CommaList α where
  closed := l.closed ++ (a, comma) :: more.closed
  last := more.last

lemma items_join (hlast : l.last = some a) :
    (l.join a comma more).items = l.items ++ more.items := by
  simp [join, items, hlast]

lemma parts_join (hlast : l.last = some a) (part : α → List (Role × Token)) :
    (l.join a comma more).parts part = l.parts part ++ (.sign, comma) :: more.parts part := by
  simp [join, parts, closedParts, hlast]

lemma IsWellFormed.join (h : l.IsWellFormed ok) (hlast : l.last = some a)
    (hcomma : comma.kind = .comma) (hmore : more.IsWellFormed ok) :
    (l.join a comma more).IsWellFormed ok := by
  refine ⟨fun item hitem => ?_, fun b hb => ?_⟩
  · rcases List.mem_append.mp hitem with hclosed | hbehind
    · exact h.comma item hclosed
    rcases List.mem_cons.mp hbehind with rfl | hclosed
    · exact hcomma
    · exact hmore.comma item hclosed
  · rw [items_join hlast] at hb
    exact (List.mem_append.mp hb).elim (h.items b) (hmore.items b)

end CommaList

namespace ListPhrase

variable {l more : ListPhrase} {a : ItemPhrase} {comma : Token} {rule : Parser.ListRule}

def join (l : ListPhrase) (a : ItemPhrase) (comma : Token) (more : ListPhrase) : ListPhrase where
  items := l.items.join a comma more.items
  base := more.base

lemma tokens_join (hbase : l.base = none) (hlast : l.items.last = some a) :
    (l.join a comma more).tokens = l.tokens ++ comma :: more.tokens := by
  have hparts : (l.items.join a comma more.items).parts ItemPhrase.parts =
      l.items.parts ItemPhrase.parts ++ (.sign, comma) :: more.items.parts ItemPhrase.parts :=
    CommaList.parts_join hlast ItemPhrase.parts
  rw [tokens, parts, join, hparts, tokens, parts, hbase, tokens, parts]
  simp

lemma IsWellFormed.join (h : l.IsWellFormed host rule) (hlast : l.items.last = some a)
    (hcomma : comma.kind = .comma) (hmore : more.IsWellFormed host rule) :
    (l.join a comma more).IsWellFormed host rule :=
  ⟨h.items.join hlast hcomma hmore.items, hmore.base⟩

/-- A list that is not empty and ends with neither a base nor a comma ends with an item. -/
lemma exists_last (hbase : l.base = none) (hitems : l.items.items ≠ [])
    (h : l.IsWellFormed host rule) (hcomma : l.tokens.getLast?.map Token.kind ≠ some .comma) :
    ∃ a, l.items.last = some a := by
  refine Option.ne_none_iff_exists'.mp fun hlast => ?_
  have hclosed : l.items.closed ≠ [] := by
    intro hnil
    exact hitems (by rw [CommaList.items, hnil, hlast]; rfl)
  obtain ⟨front, item, hsplit⟩ := (List.eq_nil_or_concat' l.items.closed).resolve_left hclosed
  refine hcomma ?_
  rw [tokens, parts, hbase, CommaList.parts, hlast, hsplit]
  simp [CommaList.closedParts, h.items.comma item (by rw [hsplit]; simp)]

end ListPhrase

/-- The first list is read in front of the comma as it is read alone. -/
lemma ListPhrase.composition_front {p : ListPhrase} {rule : Parser.ListRule} {eof : Token}
    (h : p.IsWellFormed host rule) (htokens : Tokens.ofText host text₁ = .ok ⟨p.tokens, eof⟩)
    (text₂ : String) :
    (p.map id).composition Token.value (joined text₁ text₂) = p.composition Token.value text₁ := by
  let v : Role.View := { text := text₁ }
  let v' : Role.View := { text := joined text₁ text₂ }
  have hcarries : Role.Carries host id v v' p.parts p.runs := by
    refine ⟨fun part _ => .inl rfl, fun _ _ _ => rfl, fun _ _ => rfl, fun run hrun => ?_⟩
    rw [List.map_id]
    refine Token.textOf_of_take_eq (k := text₁.toList.length) ?_ fun t ht => ?_
    · simp [v, v', joined]
    · obtain ⟨part, hpart, rfl⟩ := List.mem_map.mp ht
      have hmem : part.2 ∈ p.tokens := List.mem_map_of_mem ((p.holds run hrun).1.subset hpart)
      exact ((Tokens.tiled_of_ofText htokens).forall_mem _ hmem).2.1
  have hmap := composition_map h hcarries
  rwa [Composition.mapPositions_id, Composition.mapPositions_id] at hmap

/-- The second list is read behind the comma as it is read alone, but for its place. -/
lemma ListPhrase.composition_behind {p : ListPhrase} {rule : Parser.ListRule}
    (h : p.IsWellFormed host rule) (text₁ text₂ : String) :
    (p.map (Token.behind text₁)).composition Token.value (joined text₁ text₂) =
      (p.composition Token.value text₂).below (linesBefore text₁) := by
  let v : Role.View := { text := text₂, place := .below (linesBefore text₁) }
  let v' : Role.View := { text := joined text₁ text₂ }
  have hcarries : Role.Carries host (Token.behind text₁) v v' p.parts p.runs := by
    refine ⟨fun part _ => .inl rfl, fun _ _ _ => rfl, fun _ _ => rfl, fun run hrun => ?_⟩
    refine Token.textOf_move ?_ fun _ _ => ⟨Nat.zero_le _, Nat.zero_le _⟩
    have hfront : text₁.length + 3 = (text₁ ++ "\n,\n").toList.length := by
      rw [String.toList_append, List.length_append, String.length_toList]
      rfl
    rw [List.drop_zero, hfront]
    simp only [v, v', joined, String.toList_append, List.drop_left]
  have hmap := composition_map h hcarries
  rwa [Composition.mapPositions_id] at hmap

/-- Reading two lists with a comma on a line of its own between them gives the items of both. The
second list keeps its columns and stands further down by the lines of the first one and two more. -/
theorem Composition.ofText_append (h₁ : ofText allowBase allowMut host text₁ = .ok c₁)
    (h₂ : ofText allowBase allowMut host text₂ = .ok c₂) (hitems : c₁.items ≠ [])
    (hbase : c₁.base = none)
    (hcomma : ¬EndsInComma host text₁) (hbare₁ : ¬IsBracePair host text₁)
    (hbare₂ : ¬IsBracePair host text₂) :
    let behind := c₂.below (text₁.toList.count '\n' + 2)
    ofText allowBase allowMut host (text₁ ++ "\n,\n" ++ text₂) =
      .ok { items := c₁.items ++ behind.items, base := behind.base } := by
  intro shifted
  obtain ⟨p₁, hp₁, rfl⟩ := ofText_iff.mp h₁
  obtain ⟨p₂, hp₂, rfl⟩ := ofText_iff.mp h₂
  obtain ⟨l₁, hl₁, rfl⟩ := hp₁.exists_list hbare₁
  obtain ⟨l₂, hl₂, rfl⟩ := hp₂.exists_list hbare₂
  obtain ⟨eof₁, htokens₁⟩ := hp₁.tokens_eq_body
  obtain ⟨eof₂, htokens₂⟩ := hp₂.tokens_eq_body
  have hbase : l₁.base = none := Option.map_eq_none_iff.mp hbase
  obtain ⟨a, hlast⟩ := ListPhrase.exists_last hbase
    (fun hnil => hitems (List.map_eq_nil_iff.mpr hnil)) hl₁ fun hlast =>
      hcomma ⟨_, htokens₁, hlast⟩
  obtain ⟨comma, eof, hkind, htokens⟩ := Tokens.exists_ofText_joined htokens₁ htokens₂
  let front := l₁.map id
  let behind := l₂.map (Token.behind text₁)
  let all : ListPhrase := front.join (a.map id) comma behind
  have hfront : front.IsWellFormed host { close := .eof, allowBase, allowMut } :=
    hl₁.map (by simp) fun _ _ => .inl rfl
  have hbehind : behind.IsWellFormed host { close := .eof, allowBase, allowMut } :=
    hl₂.map (by simp) fun _ _ => .inl rfl
  have hend : front.items.last = some (a.map id) := congrArg (Option.map (ItemPhrase.map id)) hlast
  have hnone : front.base = none := congrArg (Option.map _) hbase
  have hbody : all.tokens = l₁.tokens ++ comma :: l₂.tokens.map (Token.behind text₁) := by
    rw [ListPhrase.tokens_join hnone hend, ListPhrase.tokens_map, ListPhrase.tokens_map,
      List.map_id]
  refine ofText_iff.mpr ⟨⟨none, all⟩, ⟨⟨by simp, hfront.join hend hkind hbehind⟩, eof, ?_⟩, ?_⟩
  · rw [TextPhrase.tokens_eq, Option.elim_none, hbody]
    exact htokens
  · have hitems : all.items.items = front.items.items ++ behind.items.items :=
      CommaList.items_join hend
    have hparts : all.composition Token.value (joined text₁ text₂) =
        { items := (front.composition Token.value (joined text₁ text₂)).items ++
            (behind.composition Token.value (joined text₁ text₂)).items
          base := (behind.composition Token.value (joined text₁ text₂)).base } := by
      rw [ListPhrase.composition, hitems, List.map_append]
      rfl
    rw [ListPhrase.composition_front hl₁ htokens₁, ListPhrase.composition_behind hl₂] at hparts
    exact hparts.symm

/-- `a: 1 // one` and `{b} in c, ..d`, with the comma on the second line. -/
theorem ofText_append_commentAndBase :
    let rust := Host.dialect .rust
    let text₁ := "a: 1 // one"
    let text₂ := "\x7bb\x7d in c, ..d"
    let c₁ : Composition := { items := [.entry { name := "a", value := some ⟨"1", ⟨1, 4⟩⟩ }] }
    let c₂ (line : Int) : Composition := {
      items := [.group {
        entries := [{ name := "b", position := ⟨line, 2⟩ }]
        source := ⟨"c", ⟨line, 8⟩⟩
        position := ⟨line, 1⟩ }]
      base := some ⟨"d", ⟨line, 13⟩⟩ }
    Composition.ofText true false rust text₁ = .ok c₁ ∧
      Composition.ofText true false rust text₂ = .ok (c₂ 1) ∧
      Composition.ofText true false rust (text₁ ++ "\n,\n" ++ text₂) =
        .ok { items := c₁.items ++ (c₂ 3).items, base := (c₂ 3).base } := by
  intro rust text₁ text₂ c₁ c₂
  have h₁ : Composition.ofText true false rust text₁ = .ok c₁ := by decide +kernel
  have h₂ : Composition.ofText true false rust text₂ = .ok (c₂ 1) := by decide +kernel
  have hitems : c₁.items ≠ [] := by decide
  have hcomma : ¬EndsInComma rust text₁ := by decide +kernel
  have hbare₁ : ¬IsBracePair rust text₁ := by decide +kernel
  have hbare₂ : ¬IsBracePair rust text₂ := by decide +kernel
  have hbelow : (c₂ 1).below (text₁.toList.count '\n' + 2) = c₂ 3 := by decide +kernel
  have happend := Composition.ofText_append h₁ h₂ hitems rfl hcomma hbare₁ hbare₂
  rw [hbelow] at happend
  exact ⟨h₁, h₂, happend⟩

end FieldComposition
