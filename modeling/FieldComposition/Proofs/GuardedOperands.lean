import FieldComposition.Proofs.ExpansionErrors
import FieldComposition.Proofs.RecordCode

/-!
# Operands of operators

Where a text of the caller stands directly behind a borrow or in front of a method call, the
operator only applies to the whole of it if the text is atomic. The code of a modifier puts every
other text into parentheses; the two sides of an assertion are borrowed as they are
(`expand_guards_operands`).
-/

namespace FieldComposition

namespace Code

/-- The characters of code whose lines are not indented. -/
def chars (code : Code) : List Char :=
  (code.render "").toList

/-- Code ends in an operator that borrows what follows. -/
def Borrows (pre : List Char) : Prop :=
  ['&'] <:+ pre ∨ ['&', 'm', 'u', 't', ' '] <:+ pre

/-- Code starts with a call of one of the methods that a modifier puts behind a value. -/
def Calls (post : List Char) : Prop :=
  ['.', 'c', 'l', 'o', 'n', 'e', '(', ')'] <+: post ∨ ['.', 'i', 'n', 't', 'o', '(', ')'] <+: post

instance : DecidablePred Borrows := fun _ => inferInstanceAs (Decidable (_ ∨ _))

instance : DecidablePred Calls := fun _ => inferInstanceAs (Decidable (_ ∨ _))

/-- Texts of the caller are admissible where they stand directly under an operator; `pre` and `post`
are the code around. -/
def Guarded (ok : String → Prop) (pre post : List Char) : Code → Prop
  | text _ => True
  | host s => Borrows pre ∨ Calls post → ok s
  | append first second =>
    first.Guarded ok pre (second.chars ++ post) ∧ second.Guarded ok (pre ++ first.chars) post
  | indented body => body.Guarded ok pre post

variable {ok : String → Prop} {pre post more : List Char}

@[simp] lemma chars_text (s : String) : (text s).chars = s.toList := rfl

@[simp] lemma chars_host (s : String) : (host s).chars = s.toList := rfl

@[simp] lemma chars_append (first second : Code) :
    (first ++ second).chars = first.chars ++ second.chars :=
  String.toList_append

@[simp] lemma guarded_text (s : String) : (text s).Guarded ok pre post := trivial

lemma guarded_host_iff {s : String} :
    (host s).Guarded ok pre post ↔ (Borrows pre ∨ Calls post → ok s) := .rfl

lemma guarded_append_iff {first second : Code} :
    (first ++ second).Guarded ok pre post ↔
      first.Guarded ok pre (second.chars ++ post) ∧
        second.Guarded ok (pre ++ first.chars) post := .rfl

@[simp] lemma guarded_indented_iff {body : Code} :
    (indented body).Guarded ok pre post ↔ body.Guarded ok pre post := .rfl

lemma prefix_append_cons_iff {needle : List Char} {c : Char} (hc : c ∉ needle) :
    needle <+: pre ++ c :: post ↔ needle <+: pre := by
  refine ⟨fun h => ?_, fun h => h.trans (List.prefix_append ..)⟩
  have hfirst : pre ++ [c] <+: pre ++ c :: post := ⟨post, by simp⟩
  rcases List.prefix_or_prefix_of_prefix h hfirst with h | hfirst
  · rcases List.prefix_concat_iff.mp h with rfl | h
    · exact absurd (List.mem_append_right _ List.mem_cons_self) hc
    · exact h
  · exact absurd (hfirst.subset (List.mem_append_right _ List.mem_cons_self)) hc

lemma suffix_append_cons_iff {needle : List Char} {c : Char} (hc : c ∉ needle) :
    needle <:+ pre ++ c :: post ↔ needle <:+ post := by
  rw [← List.reverse_prefix, List.reverse_append, List.reverse_cons, List.append_assoc,
    List.singleton_append, prefix_append_cons_iff (by simpa using hc), List.reverse_prefix]

/-- Only the end of what stands in front counts, from a character on that no operator has. -/
lemma borrows_append_cons_iff {c : Char} (hc : c ∉ ['&', 'm', 'u', 't', ' ']) :
    Borrows (more ++ c :: pre) ↔ Borrows pre := by
  have hamp : c ∉ ['&'] := fun h => hc (List.mem_cons.mpr (.inl (List.mem_singleton.mp h)))
  rw [Borrows, Borrows, suffix_append_cons_iff hamp, suffix_append_cons_iff hc]

lemma calls_append_cons_iff {c : Char}
    (hc : c ∉ ['.', 'c', 'l', 'o', 'n', 'e', '(', ')', 'i', 't']) :
    Calls (post ++ c :: more) ↔ Calls post := by
  simp only [List.mem_cons, List.not_mem_nil, or_false, not_or] at hc
  rw [Calls, Calls, prefix_append_cons_iff (by simp [hc]), prefix_append_cons_iff (by simp [hc])]

lemma guarded_congr {code : Code} {pre' post' : List Char}
    (hpre : ∀ more, Borrows (pre ++ more) ↔ Borrows (pre' ++ more))
    (hpost : ∀ more, Calls (more ++ post) ↔ Calls (more ++ post')) :
    code.Guarded ok pre post ↔ code.Guarded ok pre' post' := by
  induction code generalizing pre post pre' post' with
  | text s => exact .rfl
  | host s =>
    have hborrows := hpre []
    have hcalls := hpost []
    rw [List.append_nil, List.append_nil] at hborrows
    rw [List.nil_append, List.nil_append] at hcalls
    exact imp_congr (or_congr hborrows hcalls) .rfl
  | append first second ihfirst ihsecond =>
    refine and_congr (ihfirst hpre fun more => ?_) (ihsecond (fun more => ?_) hpost)
    · rw [← List.append_assoc, ← List.append_assoc]
      exact hpost _
    · rw [List.append_assoc, List.append_assoc]
      exact hpre _
  | indented body ih => exact ih hpre hpost

/-- Code on lines of its own does not depend on the lines around. -/
lemma guarded_of_newline_left_iff {code : Code} :
    code.Guarded ok (pre ++ ['\n']) post ↔ code.Guarded ok [] post := by
  refine guarded_congr (fun more => ?_) fun more => .rfl
  rw [List.append_assoc]
  exact borrows_append_cons_iff (by decide)

lemma guarded_of_newline_right_iff {code : Code} :
    code.Guarded ok pre ('\n' :: post) ↔ code.Guarded ok pre [] := by
  refine guarded_congr (fun more => .rfl) fun more => ?_
  rw [List.append_nil]
  exact calls_append_cons_iff (by decide)

lemma guarded_stacked_iff {pieces : List Code} :
    (stacked pieces).Guarded ok [] [] ↔ ∀ piece ∈ pieces, piece.Guarded ok [] [] := by
  unfold stacked
  induction pieces with
  | nil => simp [joined]
  | cons piece rest ih =>
    cases rest with
    | nil => simp [joined]
    | cons next rest =>
      have hjoined : joined "\n" (piece :: next :: rest) =
        piece ++ text "\n" ++ joined "\n" (next :: rest) := rfl
      rw [hjoined, guarded_append_iff, guarded_append_iff, List.forall_mem_cons, ← ih]
      simp only [guarded_text, and_true, List.append_nil, List.nil_append, chars_append, chars_text]
      exact and_congr guarded_of_newline_right_iff guarded_of_newline_left_iff

lemma guarded_of_hostPieces_eq_nil {code : Code} (h : code.hostPieces = []) :
    code.Guarded ok pre post := by
  induction code generalizing pre post with
  | text s => trivial
  | host s => exact absurd h (by simp)
  | append first second ihfirst ihsecond =>
    obtain ⟨hfirst, hsecond⟩ := List.append_eq_nil_iff.mp h
    exact ⟨ihfirst hfirst, ihsecond hsecond⟩
  | indented body ih => exact ih h

/-- The body between two lines of words depends on nothing around. -/
lemma guarded_enclosed_iff {first last : Code} {body : List Code} (hfirst : first.hostPieces = [])
    (hlast : last.hostPieces = []) :
    (enclosed first body last).Guarded ok pre post ↔ ∀ piece ∈ body, piece.Guarded ok [] [] := by
  have henclosed : enclosed first body last =
    first ++ text "\n" ++ (indented (stacked body) ++ text "\n" ++ last) := rfl
  rw [henclosed, ← guarded_stacked_iff]
  simp only [guarded_append_iff, guarded_text, guarded_indented_iff, and_true,
    guarded_of_hostPieces_eq_nil hfirst, guarded_of_hostPieces_eq_nil hlast, true_and,
    chars_append, chars_text, List.append_assoc]
  rw [← List.append_assoc]
  exact guarded_of_newline_left_iff.trans guarded_of_newline_right_iff

lemma guarded_braced_iff {head : Code} {body : List Code} (hhead : head.hostPieces = []) :
    (braced head body).Guarded ok pre post ↔ ∀ piece ∈ body, piece.Guarded ok [] [] :=
  guarded_enclosed_iff (by simpa using hhead) rfl

lemma guarded_block_iff {body : List Code} :
    (block body).Guarded ok pre post ↔ ∀ piece ∈ body, piece.Guarded ok [] [] :=
  guarded_enclosed_iff rfl rfl

lemma not_borrows_of_suffix (c : Char) {s : List Char} (h : [c] <:+ s ∨ [c, ' '] <:+ s)
    (hc : c ∉ ['&', 'm', 'u', 't', ' '] := by decide) : ¬Borrows (pre ++ s) := by
  rcases h with ⟨front, rfl⟩ | ⟨front, rfl⟩
  · rw [← List.append_assoc, borrows_append_cons_iff hc]
    decide
  · rw [← List.append_assoc, borrows_append_cons_iff hc]
    decide

/-- Pieces with commas between them are under no operator where the whole is not. -/
lemma guarded_joined {pieces : List Code} (hpre : ¬Borrows pre) (hpost : ¬Calls post)
    (hpieces : ∀ piece ∈ pieces, ∀ pre post, ¬Borrows pre → ¬Calls post →
      piece.Guarded ok pre post) : (joined ", " pieces).Guarded ok pre post := by
  induction pieces generalizing pre with
  | nil => trivial
  | cons piece rest ih =>
    rw [List.forall_mem_cons] at hpieces
    cases rest with
    | nil => exact hpieces.1 pre post hpre hpost
    | cons next rest =>
      have hjoined : joined ", " (piece :: next :: rest) =
        piece ++ text ", " ++ joined ", " (next :: rest) := rfl
      rw [hjoined, guarded_append_iff, guarded_append_iff]
      refine ⟨⟨hpieces.1 pre _ hpre (by simp [Calls]), trivial⟩, ih ?_ hpieces.2⟩
      rw [chars_append, ← List.append_assoc]
      exact not_borrows_of_suffix ',' (.inr (by decide))

end Code

namespace Rust

open Code

variable {ok : String → Prop} {pre post : List Char} {settings : Settings}

lemma guarded_operand (o : Operand) (hpre : ¬Borrows pre) (hpost : ¬Calls post) :
    o.code.Guarded ok pre post := by
  cases o with
  | host s => exact fun h => absurd h (not_or.mpr ⟨hpre, hpost⟩)
  | field owner name => trivial

/-- An operand is in parentheses, or it is atomic. -/
lemma guarded_atom (hok : ∀ s, isAtomic s → ok s) (o : Operand) :
    (atom o).Guarded ok pre post := by
  unfold atom
  split
  · rename_i hatomic
    cases o with
    | host s => exact fun _ => hok s hatomic
    | field owner name => trivial
  · refine ⟨⟨trivial, guarded_operand o ?_ (by simp [Calls])⟩, trivial⟩
    exact not_borrows_of_suffix '(' (.inl (by decide))

lemma guarded_code (hok : ∀ s, isAtomic s → ok s) (m : Modifier) (o : Operand)
    (hpre : ¬Borrows pre) (hpost : ¬Calls post) :
    (Term.ofModifier m o).code.Guarded ok pre post := by
  have happly (path : String) (value : Term) (hvalue : ∀ pre post, ¬Borrows pre → ¬Calls post →
      value.code.Guarded ok pre post) : (Term.apply path value).code.Guarded ok pre post := by
    refine ⟨⟨trivial, hvalue _ _ ?_ (by simp [Calls])⟩, trivial⟩
    exact not_borrows_of_suffix '(' (.inl ⟨path.toList, by simp⟩)
  have hborrow (isMut : Bool) (pre post : List Char) :
      (Term.borrow isMut o).code.Guarded ok pre post := ⟨trivial, guarded_atom hok o⟩
  cases m with
  | direct => exact guarded_operand o hpre hpost
  | ref => exact hborrow ..
  | refMut => exact hborrow ..
  | clone => exact ⟨guarded_atom hok o, trivial⟩
  | into => exact ⟨guarded_atom hok o, trivial⟩
  | cloneInto => exact ⟨guarded_atom hok o, trivial⟩
  | custom path => exact happly path _ fun pre post hpre hpost => guarded_operand o hpre hpost
  | customRef path => exact happly path _ fun pre post _ _ => hborrow ..
  | customRefMut path => exact happly path _ fun pre post _ _ => hborrow ..

lemma guarded_initializer (hok : ∀ s, isAtomic s → ok s) (i : Initializer) :
    (initializer i).Guarded ok [] [] := by
  unfold initializer
  dsimp only
  split
  · exact ⟨guarded_code hok _ _ (by decide) (by decide), trivial⟩
  · refine ⟨⟨trivial, guarded_code hok _ _ ?_ (by decide)⟩, trivial⟩
    exact not_borrows_of_suffix ':' (.inr ⟨i.target.toList, by simp⟩)

lemma guarded_literal (hok : ∀ s, isAtomic s → ok s) (typePath : String) (p : Plan) :
    (literal typePath p).Guarded ok pre post := by
  unfold literal
  dsimp only
  split
  · trivial
  · rw [guarded_braced_iff rfl]
    intro piece hpiece
    rcases List.mem_append.mp hpiece with hpiece | hpiece
    · obtain ⟨i, -, rfl⟩ := List.mem_map.mp hpiece
      exact guarded_initializer hok i
    · obtain ⟨base, -, rfl⟩ := List.mem_map.mp hpiece
      exact ⟨trivial, guarded_operand (.host base.text) (by decide) (by decide)⟩

lemma guarded_letBinding_iff {name : String} {value : Code} :
    (letBinding name value).Guarded ok [] [] ↔
      value.Guarded ok ("let " ++ name ++ " = ").toList [';'] := by
  rw [letBinding, guarded_append_iff, guarded_append_iff]
  simp

lemma not_borrows_let (name : String) : ¬Borrows ("let " ++ name ++ " = ").toList := by
  rw [← List.nil_append (String.toList _)]
  exact not_borrows_of_suffix '=' (.inr ⟨("let " ++ name ++ " ").toList, by simp⟩)

lemma guarded_bindings (p : Plan) : ∀ piece ∈ bindings p, piece.Guarded ok [] [] := by
  intro piece hpiece
  obtain ⟨b, -, rfl⟩ := List.mem_map.mp hpiece
  rw [guarded_letBinding_iff]
  exact guarded_operand (.host b.2.text) (not_borrows_let _) (by decide)

lemma guarded_structUpdate (hok : ∀ s, isAtomic s → ok s) (typePath : Expression) (t : FieldTable) :
    (structUpdate settings typePath t).Guarded ok [] [] := by
  unfold structUpdate
  dsimp only
  split
  · exact guarded_literal hok ..
  · rw [guarded_block_iff]
    intro piece hpiece
    rcases List.mem_append.mp hpiece with hpiece | hpiece
    · exact guarded_bindings _ piece hpiece
    · rw [List.mem_singleton.mp hpiece]
      exact guarded_literal hok ..

lemma guarded_anonRecord (hok : ∀ s, isAtomic s → ok s) (t : FieldTable) :
    (anonRecord settings t).Guarded ok pre post := by
  rw [anonRecord, guarded_block_iff]
  intro piece hpiece
  rw [List.mem_append, List.mem_append, List.mem_append, List.mem_singleton,
    List.mem_singleton] at hpiece
  rcases hpiece with ((hpiece | rfl) | hpiece) | rfl
  · exact guarded_of_hostPieces_eq_nil (hostPieces_anonType hpiece)
  · trivial
  · exact guarded_bindings _ piece hpiece
  · exact guarded_literal hok ..

lemma guarded_rebinding (hok : ∀ s, isAtomic s → ok s) (t : FieldTable) :
    ∀ code ∈ (rebinding t).statements, code.Guarded ok [] [] := by
  intro code hcode
  rw [List.mem_singleton.mp hcode, guarded_stacked_iff]
  intro piece hpiece
  obtain ⟨c, -, rfl⟩ := List.mem_map.mp hpiece
  rw [guarded_letBinding_iff]
  exact guarded_code hok _ _ (not_borrows_let _) (by decide)

lemma hostPieces_holderStruct (h : Holder) : (holderStruct h).hostPieces = [] := by
  unfold holderStruct
  dsimp only
  rw [stacked, hostPieces_joined]
  split <;> split <;> simp [allowNaming, indentedLines, stacked, List.flatMap_map]

lemma hostPieces_holderCall (h : Holder) : (holderCall h).hostPieces = [] := by
  unfold holderCall
  cases h.receiver <;> simp [List.flatMap_map, Operand.hostTexts]

lemma guarded_holderDefault (h : Holder) : (holderDefault h).Guarded ok [] [] := by
  rw [holderDefault, guarded_braced_iff rfl, List.forall_mem_singleton, guarded_braced_iff rfl,
    List.forall_mem_singleton, guarded_braced_iff rfl]
  intro piece hpiece
  obtain ⟨a, -, rfl⟩ := List.mem_map.mp hpiece
  refine ⟨⟨trivial, guarded_operand (.host _) ?_ (by decide)⟩, trivial⟩
  exact not_borrows_of_suffix ':' (.inr ⟨a.name.toList, by simp⟩)

lemma guarded_holder (h : Holder) : ∀ code ∈ (holder h).statements, code.Guarded ok [] [] := by
  intro code hcode
  rw [holder, List.mem_append, List.mem_append, List.mem_singleton, List.mem_singleton] at hcode
  rcases hcode with (rfl | hcode) | rfl
  · exact guarded_of_hostPieces_eq_nil (hostPieces_holderStruct h)
  · split at hcode
    · rw [List.mem_singleton.mp hcode]
      exact guarded_holderDefault h
    · exact absurd hcode (by simp)
  · exact guarded_of_hostPieces_eq_nil (hostPieces_holderCall h)

/-- A side of an assertion is borrowed as it is. -/
lemma guarded_side_iff (name text : String) :
    (letBinding name (.text "&" ++ .host text)).Guarded ok [] [] ↔ ok text := by
  rw [guarded_letBinding_iff, guarded_append_iff, guarded_host_iff]
  have hborrows : Borrows (("let " ++ name ++ " = ").toList ++ (Code.text "&").chars) :=
    .inl (List.suffix_append ..)
  exact ⟨fun h => h.2 (.inl hborrows), fun h => ⟨trivial, fun _ => h⟩⟩

lemma hostPieces_projection (side : String) (fields : List String) :
    (projection side fields).hostPieces = [] := by
  simp [projection, List.flatMap_map]

/-- The arguments of the call that compares the two sides are under no operator. -/
lemma guarded_call (args : List Expression) :
    (Code.text "assert_eq!(" ++ joined ", " (.text "left" :: .text "right" ::
      args.map fun arg => .host arg.text) ++ .text ");").Guarded ok [] [] := by
  refine ⟨⟨trivial, guarded_joined (by decide) (by decide) ?_⟩, trivial⟩
  intro piece hpiece pre post hpre hpost
  rw [List.mem_cons, List.mem_cons] at hpiece
  rcases hpiece with rfl | rfl | hpiece
  · trivial
  · trivial
  · obtain ⟨arg, -, rfl⟩ := List.mem_map.mp hpiece
    exact guarded_operand (.host arg.text) hpre hpost

/-- All texts of an assertion but its sides are admissible. -/
lemma guarded_assertion_iff (settings : Settings) (hok : ∀ s, isAtomic s → ok s) (a : Assertion)
    (t : FieldTable) :
    (∀ code ∈ (assertion settings a t).statements, code.Guarded ok [] []) ↔
      ok a.actual.text ∧ ∀ e fields, a.expected = .value e fields → ok e.text := by
  have hnaming : allowNaming.Guarded ok [] [] := trivial
  have hfields (head : String) : (Code.braced (.text head)
      (a.fields.map fun field => .text (field ++ ": &'a " ++ field ++ ","))).Guarded ok [] [] :=
    guarded_of_hostPieces_eq_nil (by simp [List.flatMap_map])
  have hprojection (side : String) : (projection side a.fields).Guarded ok [] [] :=
    guarded_of_hostPieces_eq_nil (hostPieces_projection ..)
  rw [assertion, List.forall_mem_singleton, guarded_block_iff]
  cases hexpected : a.expected with
  | value e fields =>
    simp [guarded_side_iff, guarded_call, hnaming, hfields, hprojection]
  | record c =>
    have hrecord : (letBinding "right" (anonRecord settings t)).Guarded ok [] [] := by
      rw [guarded_letBinding_iff]
      exact guarded_anonRecord hok t
    have hright : (letBinding "right" (.text "&" ++ .text "right")).Guarded ok [] [] :=
      guarded_of_hostPieces_eq_nil rfl
    simp [guarded_side_iff, guarded_call, hnaming, hfields, hprojection, hrecord, hright]

end Rust

/-- Wherever the rust code of an invocation puts a text of the caller directly under an operator,
the text is atomic, but for the sides of an assertion: these are always put there as they are. -/
theorem expand_guards_operands {entryPoint : EntryPoint} {dialect? : Option Dialect}
    {settings : Settings} {file text : String} {expansion : Expansion}
    (hdialect : dialect?.getD settings.dialect = .rust)
    (h : expand entryPoint.name text (dialect?.map Dialect.name) settings file = .ok expansion) :
    ∃ i t, Invocation.ofText entryPoint (.dialect .rust) text = .ok i ∧ i.table = .ok t ∧
      let draft := Rust.draft settings i t
      expansion = draft.layout settings.tab entryPoint "rust" ∧
      ∀ ok : String → Prop, (∀ s, Rust.isAtomic s → ok s) →
        ((∀ code ∈ draft.statements ++ draft.expression.toList, code.Guarded ok [] []) ↔
          ∀ a, i = .assertion a →
            ok a.actual.text ∧ ∀ e fields, a.expected = .value e fields → ok e.text) := by
  obtain ⟨i, t, hread, ht, rfl⟩ := expand_eq_ok_iff.mp h
  rw [hdialect] at hread ⊢
  refine ⟨i, t, hread, ht, rfl, fun ok hok => ?_⟩
  cases i with
  | structUpdate typePath c =>
    simpa [Rust.draft] using Rust.guarded_structUpdate hok typePath t
  | anonRecord c => simpa [Rust.draft] using Rust.guarded_anonRecord hok t
  | rebinding c => simpa [Rust.draft, Rust.rebinding] using Rust.guarded_rebinding hok t
  | holder holder => simpa [Rust.draft, Rust.holder] using Rust.guarded_holder holder
  | assertion a =>
    have hsides := Rust.guarded_assertion_iff settings hok a t
    simpa [Rust.draft, Rust.assertion] using hsides

/-- A borrowed sum is put into parentheses, and so every place passes. -/
theorem expand_guards_operands_borrowedSum :
    let text := "a[0], \x7b &x: b + c \x7d"
    ∃ i t, Invocation.ofText .assertFieldsEq (.dialect .rust) text = .ok i ∧ i.table = .ok t ∧
      (Rust.draft {} i t).hostPieces = ["b + c", "a[0]"] ∧
      ∀ code ∈ (Rust.draft {} i t).statements, code.Guarded (Rust.isAtomic ·) [] [] := by
  intro text
  let c : Composition := { items := [.entry
    { name := "x", modifier := .ref, value := some ⟨"b + c", ⟨1, 13⟩⟩, position := ⟨1, 9⟩ }] }
  have hread : Invocation.ofText .assertFieldsEq (.dialect .rust) text =
      .ok (.assertion ⟨⟨"a[0]", ⟨1, 1⟩⟩, .record c, []⟩) := by
    decide +kernel
  have hexpand : expand EntryPoint.assertFieldsEq.name text (Option.map Dialect.name (some .rust)) {}
      "<input>" = .ok _ :=
    expand_eq_ok_iff.mpr ⟨_, _, hread, rfl, rfl⟩
  obtain ⟨i, t, hread', ht, -, hguarded⟩ := expand_guards_operands rfl hexpand
  rw [hread] at hread'
  obtain rfl := Except.ok.inj hread'
  change c.resolve = .ok t at ht
  obtain ⟨-, rfl⟩ := Composition.resolve_eq_ok_iff.mp ht
  refine ⟨_, _, hread, ht, by decide +kernel, fun code hcode => ?_⟩
  refine (hguarded (Rust.isAtomic ·) fun _ h => h).mpr ?_ code (List.mem_append_left _ hcode)
  rintro a ha
  obtain rfl := Invocation.assertion.inj ha
  exact ⟨by decide +kernel, by simp⟩

/-- The borrow of a sum only applies to its first term. -/
theorem not_guarded_sum :
    let text := "a + b, c, [x]"
    ∃ a t, Invocation.ofText .assertFieldsEq (.dialect .rust) text = .ok (.assertion a) ∧
      (Invocation.assertion a).table = .ok t ∧ Rust.isAtomic a.actual.text = false ∧
      ¬∀ code ∈ (Rust.draft {} (.assertion a) t).statements,
        code.Guarded (Rust.isAtomic ·) [] [] := by
  intro text
  let a : Assertion := ⟨⟨"a + b", ⟨1, 1⟩⟩, .value ⟨"c", ⟨1, 8⟩⟩ ["x"], []⟩
  have hread : Invocation.ofText .assertFieldsEq (.dialect .rust) text = .ok (.assertion a) := by
    decide +kernel
  have hsum : Rust.isAtomic a.actual.text = false := by decide +kernel
  refine ⟨a, {}, hread, rfl, hsum, fun hguarded => ?_⟩
  have hatomic := ((Rust.guarded_assertion_iff {} (fun _ h => h) a {}).mp hguarded).1
  rw [hsum] at hatomic
  exact absurd hatomic (by decide)

end FieldComposition
