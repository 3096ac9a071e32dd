import FieldComposition.Proofs.BindingLines
import FieldComposition.Proofs.RelaidText

/-!
# The indent is cosmetic

Every piece of emitted code has the same text with two tabs, up to margins (`Code.IsRelaid`). A
piece that may start with a margin stands behind a newline, and words that are written on one line
start with no margin, so what is put together has the property again. An indent therefore has no
effect but on the spaces that lines start with (`expand_indent_is_cosmetic`).
-/

namespace FieldComposition

namespace Code

variable {m n : Nat}

/-- Code that has the same text behind some words with tabs of `m` spaces and of `n` spaces, up to
the margins of lines. Without words before it, its first line has no margin. -/
def IsRelaid (m n : Nat) (before : List Char) (code : Code) : Prop :=
  Text.Relaid m n (before ++ (code.render ("".pushn ' ' m)).toList)
    (before ++ (code.render ("".pushn ' ' n)).toList)

@[simp] lemma isRelaid_text (before : List Char) (s : String) : (text s).IsRelaid m n before :=
  Text.Relaid.refl (before ++ s.toList)

@[simp] lemma isRelaid_host (before : List Char) (s : String) : (host s).IsRelaid m n before :=
  Text.Relaid.refl (before ++ s.toList)

namespace IsRelaid

variable {before : List Char} {first second code last : Code} {pieces : List Code}

lemma behind (h : code.IsRelaid m n []) (before : List Char) : code.IsRelaid m n before :=
  (Text.Relaid.refl before).append h

lemma append (hfirst : first.IsRelaid m n before) (hsecond : second.IsRelaid m n []) :
    (first ++ second).IsRelaid m n before := by
  have h := Text.Relaid.append hfirst hsecond
  rw [List.append_assoc, List.append_assoc, List.nil_append, List.nil_append,
    ← String.toList_append, ← String.toList_append] at h
  exact h

lemma wrapped (opening closing : String) (h : code.IsRelaid m n []) :
    (text opening ++ code ++ text closing).IsRelaid m n before :=
  ((isRelaid_text before opening).append h).append (isRelaid_text [] closing)

/-- Behind a separator that ends in a newline a piece may start with a margin. -/
lemma append_separator {separator : String} (front : List Char)
    (hseparator : separator.toList = front ++ ['\n']) (hfirst : first.IsRelaid m n before)
    (hsecond : second.IsRelaid m n ['\n']) :
    (first ++ text separator ++ second).IsRelaid m n before := by
  have h := Text.Relaid.append hfirst ((Text.Relaid.refl front).append hsecond)
  have hrender : ∀ tab, ((first ++ text separator ++ second).render tab).toList =
      (first.render tab).toList ++ (front ++ (['\n'] ++ (second.render tab).toList)) := by
    intro tab
    change (first.render tab ++ separator ++ second.render tab).toList = _
    rw [String.toList_append, String.toList_append, hseparator, List.append_assoc,
      List.append_assoc]
  rw [List.append_assoc, List.append_assoc, ← hrender, ← hrender] at h
  exact h

lemma indented (h : code.IsRelaid m n ['\n']) : (Code.indented code).IsRelaid m n ['\n'] := by
  have hindent := Text.Relaid.indentLines h
  rw [IsRelaid, render, render, Text.indent, Text.indent, String.toList_ofList,
    String.toList_ofList, Text.toList_pushn, Text.toList_pushn]
  exact hindent

lemma joined {separator : String} (h : ∀ piece ∈ pieces, piece.IsRelaid m n []) :
    (Code.joined separator pieces).IsRelaid m n [] := by
  induction pieces with
  | nil => exact isRelaid_text _ ""
  | cons piece rest ih =>
    have hpiece := h piece (by simp)
    cases rest with
    | nil => exact hpiece
    | cons next rest =>
      rw [Code.joined]
      · exact (hpiece.append (isRelaid_text _ separator)).append (ih fun p hp => h p (by simp [hp]))
      · simp

/-- Pieces that start lines of their own. -/
lemma joined_below {separator : String} (front : List Char)
    (hseparator : separator.toList = front ++ ['\n'])
    (h : ∀ piece ∈ pieces, piece.IsRelaid m n ['\n']) :
    (Code.joined separator pieces).IsRelaid m n ['\n'] := by
  induction pieces with
  | nil => exact isRelaid_text _ ""
  | cons piece rest ih =>
    have hpiece := h piece (by simp)
    cases rest with
    | nil => exact hpiece
    | cons next rest =>
      rw [Code.joined]
      · exact hpiece.append_separator front hseparator (ih fun p hp => h p (by simp [hp]))
      · simp

lemma stacked (h : ∀ piece ∈ pieces, piece.IsRelaid m n ['\n']) :
    (Code.stacked pieces).IsRelaid m n ['\n'] :=
  joined_below [] rfl h

lemma indentedLines (h : ∀ piece ∈ pieces, piece.IsRelaid m n ['\n']) :
    (Code.indentedLines pieces).IsRelaid m n ['\n'] :=
  (stacked h).indented

lemma enclosed (hfirst : first.IsRelaid m n []) (h : ∀ piece ∈ pieces, piece.IsRelaid m n ['\n'])
    (hlast : last.IsRelaid m n []) : (Code.enclosed first pieces last).IsRelaid m n [] :=
  have hbelow : (Code.indentedLines pieces ++ text "\n" ++ last).IsRelaid m n ['\n'] :=
    (indentedLines h).append_separator [] rfl (hlast.behind _)
  hfirst.append_separator [] rfl hbelow

lemma braced (hfirst : first.IsRelaid m n []) (h : ∀ piece ∈ pieces, piece.IsRelaid m n ['\n']) :
    (Code.braced first pieces).IsRelaid m n [] :=
  enclosed (hfirst.append (isRelaid_text _ _)) h (isRelaid_text _ _)

lemma block (h : ∀ piece ∈ pieces, piece.IsRelaid m n ['\n']) :
    (Code.block pieces).IsRelaid m n [] :=
  enclosed (isRelaid_text _ _) h (isRelaid_text _ _)

end IsRelaid

end Code

lemma Operand.isRelaid_code {m n : Nat} (o : Operand) : o.code.IsRelaid m n [] := by
  cases o with
  | host text => exact Code.isRelaid_host _ text
  | field owner name => exact Code.isRelaid_text _ _

namespace Python

variable {m n : Nat} {runtimeName : String}

lemma Term.isRelaid_code (t : Term) : (t.code runtimeName).IsRelaid m n [] := by
  induction t with
  | operand o => exact o.isRelaid_code
  | clone value ih => exact ih.wrapped _ _
  | convert value target field ih => exact ih.wrapped _ _
  | apply path value ih => exact ih.wrapped _ _

lemma isRelaid_call {callee : Code} {args : List Code} (hcallee : callee.IsRelaid m n [])
    (h : ∀ arg ∈ args, arg.IsRelaid m n []) : (call callee args).IsRelaid m n [] := by
  unfold call
  split_ifs
  · exact hcallee.append (Code.isRelaid_text _ _)
  · refine .enclosed (hcallee.append (Code.isRelaid_text _ _)) ?_ (Code.isRelaid_text _ _)
    intro piece hpiece
    obtain ⟨arg, harg, rfl⟩ := List.mem_map.mp hpiece
    exact ((h arg harg).append (Code.isRelaid_text _ _)).behind _

lemma Computation.isRelaid_code (c : Computation) : (c.code runtimeName).IsRelaid m n [] := by
  have hkeywords : ∀ keywords : List Keyword, ∀ code ∈ keywords.map (keyword runtimeName),
      code.IsRelaid m n [] := by
    intro keywords code hcode
    obtain ⟨k, -, rfl⟩ := List.mem_map.mp hcode
    exact (Code.isRelaid_text _ _).append k.value.isRelaid_code
  cases c with
  | term t => exact t.isRelaid_code
  | host text => exact Code.isRelaid_host _ text
  | construct callee keywords => exact isRelaid_call (Code.isRelaid_text _ _) (hkeywords keywords)
  | update callee base keywords =>
    refine isRelaid_call (Code.isRelaid_text _ _) ?_
    simp only [List.forall_mem_cons]
    exact ⟨Code.isRelaid_text _ _, Code.isRelaid_host _ _, hkeywords keywords⟩
  | fieldChecks left right => exact Code.isRelaid_text _ _

lemma ClassDef.isRelaid_lines (d : ClassDef) :
    ∀ line ∈ d.lines runtimeName, line.IsRelaid m n ['\n'] := by
  have hfield : ∀ f : Field, (fieldLine f).IsRelaid m n [] := by
    intro f
    unfold fieldLine
    cases f.default with
    | none => exact Code.isRelaid_text _ _
    | some default =>
      exact (((Code.isRelaid_text _ _).append (Code.isRelaid_text _ _)).append
        (Code.isRelaid_host _ _)).append (Code.isRelaid_text _ _)
  have hmethod : ∀ method : Method, ∀ line ∈ methodLines runtimeName method,
      line.IsRelaid m n ['\n'] := by
    intro method
    have hargs : (Code.joined ", " (method.args.map (·.code runtimeName))).IsRelaid m n [] := by
      refine .joined fun piece hpiece => ?_
      obtain ⟨arg, -, rfl⟩ := List.mem_map.mp hpiece
      exact arg.isRelaid_code
    simp only [methodLines, List.forall_mem_cons]
    refine ⟨(Code.isRelaid_text _ _).indented, ?_, by simp⟩
    exact (hargs.wrapped _ _).indented.indented
  have hfields : ∀ line ∈ d.fields.map (fun f => Code.indented (fieldLine f)),
      line.IsRelaid m n ['\n'] := by
    intro line hline
    obtain ⟨f, -, rfl⟩ := List.mem_map.mp hline
    exact ((hfield f).behind _).indented
  unfold ClassDef.lines
  simp only [List.forall_mem_append, List.forall_mem_cons]
  refine ⟨⟨⟨Code.isRelaid_text _ _, Code.isRelaid_text _ _, by simp⟩, hfields⟩, ?_⟩
  cases d.method with
  | none => simp
  | some method =>
    simp only [List.forall_mem_append]
    refine ⟨?_, hmethod method⟩
    split_ifs <;> simp

lemma Line.isRelaid_code (line : Line) :
    ∀ piece ∈ line.code runtimeName, piece.IsRelaid m n ['\n'] := by
  cases line with
  | classDef d => exact d.isRelaid_lines
  | blank | typeVariable | check => 
    simp only [Line.code, List.forall_mem_singleton]
    exact Code.isRelaid_text _ _
  | assign name value =>
    simp only [Line.code, List.forall_mem_singleton]
    exact ((Code.isRelaid_text _ _).append value.isRelaid_code).behind _
  | report checks args =>
    simp only [Line.code, List.forall_mem_singleton]
    have hargs : (Code.joined ", " (args.map fun arg => Code.host arg.text)).IsRelaid m n [] := by
      refine .joined fun piece hpiece => ?_
      obtain ⟨arg, -, rfl⟩ := List.mem_map.mp hpiece
      exact Code.isRelaid_host _ _
    exact hargs.wrapped _ _

/-- The parts of a script are code that may start a line. -/
lemma Script.isRelaid_draft (s : Script) :
    ∀ piece ∈ (s.draft runtimeName).statements ++ (s.draft runtimeName).expression.toList,
      piece.IsRelaid m n ['\n'] := by
  simp only [Script.draft, List.forall_mem_append, Option.toList_map, List.forall_mem_map]
  refine ⟨fun block _ => .stacked fun piece hpiece => ?_,
    fun result _ => result.isRelaid_code.behind _⟩
  obtain ⟨line, -, hline⟩ := List.mem_flatMap.mp hpiece
  exact line.isRelaid_code piece hline

end Python

namespace Rust

variable {m n : Nat}

lemma isRelaid_atom (o : Operand) : (atom o).IsRelaid m n [] := by
  unfold atom
  split_ifs
  · exact o.isRelaid_code
  · exact o.isRelaid_code.wrapped _ _

lemma Term.isRelaid_code (t : Term) : t.code.IsRelaid m n [] := by
  induction t with
  | operand o => exact o.isRelaid_code
  | borrow isMut o => exact (Code.isRelaid_text _ _).append (isRelaid_atom o)
  | methods o calls => exact (isRelaid_atom o).append (Code.isRelaid_text _ _)
  | apply path value ih => exact ih.wrapped _ _

lemma isRelaid_initializer (i : Initializer) : (initializer i).IsRelaid m n [] := by
  have hvalue := (Term.ofModifier i.modifier i.operand).isRelaid_code (m := m) (n := n)
  unfold initializer
  dsimp only
  split_ifs
  · exact hvalue.append (Code.isRelaid_text _ _)
  · exact hvalue.wrapped _ _

lemma isRelaid_literal (typePath : String) (p : Plan) : (literal typePath p).IsRelaid m n [] := by
  unfold literal
  dsimp only
  split_ifs
  · exact Code.isRelaid_text _ _
  · refine .braced (Code.isRelaid_text _ _) ?_
    simp only [List.forall_mem_append, List.forall_mem_map]
    refine ⟨fun i _ => (isRelaid_initializer i).behind _, fun base _ => ?_⟩
    exact ((Code.isRelaid_text _ _).append (Code.isRelaid_host _ _)).behind _

lemma isRelaid_letBinding {name : String} {value : Code} (h : value.IsRelaid m n []) :
    (letBinding name value).IsRelaid m n [] :=
  h.wrapped _ _

lemma isRelaid_bindings (p : Plan) : ∀ piece ∈ bindings p, piece.IsRelaid m n [] := by
  simp only [bindings, List.forall_mem_map]
  exact fun binding _ => isRelaid_letBinding (Code.isRelaid_host _ _)

lemma isRelaid_structUpdate (settings : Settings) (typePath : Expression) (t : FieldTable) :
    (structUpdate settings typePath t).IsRelaid m n [] := by
  unfold structUpdate
  dsimp only
  split_ifs
  · exact isRelaid_literal _ _
  · refine .block ?_
    simp only [List.forall_mem_append, List.forall_mem_singleton]
    exact ⟨fun piece hpiece => (isRelaid_bindings _ piece hpiece).behind _,
      (isRelaid_literal _ _).behind _⟩

lemma isRelaid_anonType (settings : Settings) (t : FieldTable) :
    ∀ piece ∈ anonType settings t, piece.IsRelaid m n [] := by
  simp only [anonType, allowNaming, List.forall_mem_cons]
  exact ⟨Code.isRelaid_text _ _, Code.isRelaid_text _ _,
    .braced (Code.isRelaid_text _ _) (by simp), List.forall_mem_nil _⟩

lemma isRelaid_anonRecord (settings : Settings) (t : FieldTable) :
    (anonRecord settings t).IsRelaid m n [] := by
  refine .block fun piece hpiece => .behind ?_ _
  revert piece
  simp only [List.forall_mem_append, List.forall_mem_singleton]
  exact ⟨⟨⟨isRelaid_anonType settings t, Code.isRelaid_text _ _⟩, isRelaid_bindings _⟩,
    isRelaid_literal _ _⟩

lemma isRelaid_rebinding (t : FieldTable) :
    ∀ piece ∈ (rebinding t).statements, piece.IsRelaid m n ['\n'] := by
  simp only [rebinding, List.forall_mem_singleton]
  refine .stacked ?_
  simp only [List.forall_mem_map]
  exact fun claim _ => (isRelaid_letBinding (Term.isRelaid_code _)).behind _

lemma isRelaid_holderStruct (h : Holder) : (holderStruct h).IsRelaid m n ['\n'] := by
  refine .stacked ?_
  simp only [List.forall_mem_append, List.forall_mem_singleton]
  refine ⟨⟨⟨?_, Code.isRelaid_text _ _⟩, ?_⟩, Code.isRelaid_text _ _⟩
  · split_ifs <;> simp [allowNaming]
  · split_ifs
    · simp
    · rw [List.forall_mem_singleton]
      refine .indentedLines ?_
      simp

lemma isRelaid_holderDefault (h : Holder) : (holderDefault h).IsRelaid m n [] := by
  refine .braced (Code.isRelaid_text _ _) ?_
  rw [List.forall_mem_singleton]
  refine .behind (.braced (Code.isRelaid_text _ _) ?_) _
  rw [List.forall_mem_singleton]
  refine .behind (.braced (Code.isRelaid_text _ _) ?_) _
  rw [List.forall_mem_map]
  exact fun a _ => (Code.isRelaid_host _ _).wrapped _ _

lemma isRelaid_holderCall (h : Holder) : (holderCall h).IsRelaid m n [] := by
  refine .braced (Code.isRelaid_text _ _) ?_
  rw [List.forall_mem_singleton]
  refine .behind (.braced (Code.isRelaid_text _ _) ?_) _
  rw [List.forall_mem_singleton]
  refine .wrapped _ _ (.joined ?_)
  simp only [List.forall_mem_append, List.forall_mem_map]
  refine ⟨?_, fun a _ => Term.isRelaid_code _⟩
  cases h.receiver <;> simp

lemma isRelaid_holder (h : Holder) :
    ∀ piece ∈ (holder h).statements, piece.IsRelaid m n ['\n'] := by
  simp only [holder, List.forall_mem_append, List.forall_mem_singleton]
  refine ⟨⟨isRelaid_holderStruct h, ?_⟩, (isRelaid_holderCall h).behind _⟩
  split_ifs
  · rw [List.forall_mem_singleton]
    exact (isRelaid_holderDefault h).behind _
  · simp

lemma isRelaid_projection (side : String) (fields : List String) :
    (projection side fields).IsRelaid m n [] := by
  refine .enclosed (Code.isRelaid_text _ _) ?_ (Code.isRelaid_text _ _)
  simp

/-- The statements of an assertion behind the code that its right side needs. -/
lemma isRelaid_assertion (settings : Settings) (a : Assertion) (t : FieldTable) :
    ∀ piece ∈ (assertion settings a t).statements, piece.IsRelaid m n [] := by
  have hfields : ∀ generics : String,
      (Code.braced (.text ("struct Fields<" ++ generics ++ ">"))
        (a.fields.map fun field => .text (field ++ ": &'a " ++ field ++ ","))).IsRelaid m n [] :=
    fun _ => .braced (Code.isRelaid_text _ _) (by simp)
  have hside : ∀ name, ∀ value : Code, value.IsRelaid m n [] →
      (letBinding name (.text "&" ++ value)).IsRelaid m n [] := fun name value hvalue =>
    isRelaid_letBinding ((Code.isRelaid_text _ _).append hvalue)
  have hcompare : (.text "assert_eq!(" ++ Code.joined ", " ([.text "left", .text "right"] ++
      a.formatArgs.map fun arg => Code.host arg.text) ++ .text ");").IsRelaid m n [] :=
    .wrapped _ _ (.joined (by simp))
  have hactual := hside "left" (.host a.actual.text) (Code.isRelaid_host _ _)
  unfold assertion
  rw [List.forall_mem_singleton]
  refine .block fun piece hpiece => .behind ?_ _
  revert piece
  cases a.expected with
  | value expression _ =>
    simp only [List.forall_mem_append, List.forall_mem_cons]
    exact ⟨nofun, Code.isRelaid_text _ _, Code.isRelaid_text _ _, hfields _, Code.isRelaid_text _ _,
      hactual, isRelaid_projection _ _, Code.isRelaid_text _ _,
      hside _ _ (Code.isRelaid_host _ _), isRelaid_projection _ _, Code.isRelaid_text _ _, hcompare,
      nofun⟩
  | record _ =>
    simp only [List.forall_mem_append, List.forall_mem_cons]
    exact ⟨⟨isRelaid_letBinding (isRelaid_anonRecord settings t), Code.isRelaid_text _ _, nofun⟩,
      Code.isRelaid_text _ _, Code.isRelaid_text _ _, hfields _, Code.isRelaid_text _ _,
      hactual, isRelaid_projection _ _, Code.isRelaid_text _ _,
      hside _ _ (Code.isRelaid_text _ _), isRelaid_projection _ _, Code.isRelaid_text _ _, hcompare,
      nofun⟩

end Rust

/-- Every part of a backend's code may start a line. -/
lemma Backend.isRelaid_draft {m n : Nat} (b : Backend) (settings : Settings) (i : Invocation)
    (t : FieldTable) :
    ∀ piece ∈ (b.draft settings i t).statements ++ (b.draft settings i t).expression.toList,
      piece.IsRelaid m n ['\n'] := by
  unfold Backend.draft
  cases b.dialect with
  | python => exact Python.Script.isRelaid_draft _
  | rust =>
    rw [List.forall_mem_append]
    cases i with
    | structUpdate typePath c =>
      refine ⟨nofun, List.forall_mem_singleton.mpr ?_⟩
      exact (Rust.isRelaid_structUpdate settings typePath t).behind _
    | anonRecord c =>
      refine ⟨nofun, List.forall_mem_singleton.mpr ?_⟩
      exact (Rust.isRelaid_anonRecord settings t).behind _
    | rebinding c => exact ⟨Rust.isRelaid_rebinding t, nofun⟩
    | holder h => exact ⟨Rust.isRelaid_holder h, nofun⟩
    | assertion a =>
      refine ⟨fun piece hpiece => ?_, nofun⟩
      exact (Rust.isRelaid_assertion settings a t piece hpiece).behind _

/-- The whole text of an expansion as one piece of code. -/
def Draft.code (d : Draft) : Code :=
  let imports := d.importLines
  Code.joined "\n\n" ((if imports.isEmpty then [] else [.text ("\n".intercalate imports)]) ++
    d.statements ++ d.expression.toList) ++ .text "\n"

lemma Draft.render_layout (d : Draft) (tab : String) (entryPoint : EntryPoint) (dialect : String) :
    (d.layout tab entryPoint dialect).render = d.code.render tab := by
  change _ = (Code.joined _ _).render tab ++ "\n"
  rw [Code.render_joined, Expansion.render, Draft.layout_eq]
  dsimp only
  rw [List.map_append, List.map_append, Option.toList_map]
  split_ifs <;> rfl

/-- With another indent an expansion has the same text up to margins. -/
lemma Backend.relaid_render_layout {m n : Nat} (b : Backend) (settings : Settings) (i : Invocation)
    (t : FieldTable) (entryPoint : EntryPoint) (dialect : String) :
    Text.Relaid m n
      ('\n' :: ((b.draft settings i t).layout ("".pushn ' ' m) entryPoint dialect).render.toList)
      ('\n' :: ((b.draft settings i t).layout ("".pushn ' ' n) entryPoint
        dialect).render.toList) := by
  rw [Draft.render_layout, Draft.render_layout]
  have hcode : (b.draft settings i t).code.IsRelaid m n ['\n'] := by
    refine Code.IsRelaid.append ?_ (Code.isRelaid_text _ _)
    refine Code.IsRelaid.joined_below ['\n'] rfl ?_
    rw [List.append_assoc, List.forall_mem_append]
    refine ⟨?_, Backend.isRelaid_draft b settings i t⟩
    split_ifs <;> simp
  exact hcode

/-- Neither what is read nor the code depends on the indent, only the layout does. -/
lemma expand_indent {entryPoint text : String} {dialect : Option String} {settings : Settings}
    {file : String} {e : Expansion} (h : expand entryPoint text dialect settings file = .ok e)
    (n : Nat) :
    ∃ (b : Backend) (i : Invocation) (t : FieldTable),
      e = (b.draft settings i t).layout settings.tab b.entryPoint b.dialect.name ∧
        expand entryPoint text dialect { settings with indent := n } file =
          .ok ((b.draft settings i t).layout ("".pushn ' ' n) b.entryPoint b.dialect.name) := by
  have hread : readInvocation entryPoint text dialect { settings with indent := n } file =
      readInvocation entryPoint text dialect settings file := rfl
  have hdraft : ∀ (b : Backend) (i : Invocation) (t : FieldTable),
      b.draft { settings with indent := n } i t = b.draft settings i t := fun _ _ _ => rfl
  unfold expand at h ⊢
  rw [hread]
  cases hinvocation : readInvocation entryPoint text dialect settings file with
  | error error =>
    rw [hinvocation] at h
    cases h
  | ok read =>
    obtain ⟨b, i⟩ := read
    rw [hinvocation] at h
    simp only [bind, Except.bind, Backend.expand] at h ⊢
    split at h
    · cases h
    rename_i hform
    rw [if_neg hform]
    cases htable : i.table with
    | error conflict =>
      rw [htable] at h
      cases h
    | ok t =>
      rw [htable] at h
      refine ⟨b, i, t, (Except.ok.inj h).symm, ?_⟩
      dsimp only
      rw [hdraft]
      rfl

/-- The indent is cosmetic: an invocation that is expanded with one indent is expanded with any
other one, and the two texts have the same lines up to the spaces that they start with. On every
line the numbers of these spaces differ by a multiple of the difference of the indents. -/
theorem expand_indent_is_cosmetic {entryPoint text : String} {dialect : Option String}
    {settings : Settings} {file : String} {e : Expansion}
    (h : expand entryPoint text dialect settings file = .ok e) (n : Nat) :
    ∃ e', expand entryPoint text dialect { settings with indent := n } file = .ok e' ∧
      List.Forall₂ (fun line line' =>
        Text.withoutMargin line = Text.withoutMargin line' ∧
        ∃ depth : Nat, (Text.leadingSpaces line : ℤ) - Text.leadingSpaces line' =
          depth * ((settings.indent : ℤ) - n))
        (Text.lines e.render.toList) (Text.lines e'.render.toList) := by
  obtain ⟨b, i, t, rfl, hexpand⟩ := expand_indent h n
  refine ⟨_, hexpand, ?_⟩
  have hrelaid := b.relaid_render_layout (m := settings.indent) (n := n) settings i t b.entryPoint
    b.dialect.name
  -- The newline in front is a line of its own in both texts.
  have hlines := hrelaid.lines.2
  rw [Text.lines_cons, Text.lines_cons, if_pos Text.endsLine_newline,
    if_pos Text.endsLine_newline] at hlines
  refine (List.forall₂_cons.mp hlines).2.imp fun line line' hline => ?_
  exact ⟨hline.withoutMargin_eq, hline.exists_leadingSpaces_sub⟩

/-- A literal in a block, with an expression on two lines of which the second has its own
blanks. -/
def Expansion.literalInBlock : Expansion where
  entryPoint := .spread
  dialect := "rust"
  expression := some ("\x7b\n    let __b = g();\n    P \x7b\n        a: f(1,\n          2),\n" ++
    "        b: __b.b,\n    \x7d\n\x7d")

theorem expand_indent_literalInBlock :
    let text := "P \x7b a: f(1,\n  2), \x7b b \x7d in g() \x7d"
    expand "spread" text (some "rust") {} "<input>" = .ok .literalInBlock ∧
      ∃ e', expand "spread" text (some "rust") { indent := 3 } "<input>" = .ok e' ∧
        List.Forall₂ (fun line line' =>
          Text.withoutMargin line = Text.withoutMargin line' ∧
          ∃ depth : Nat, (Text.leadingSpaces line : ℤ) - Text.leadingSpaces line' =
            depth * (((4 : Nat) : ℤ) - ((3 : Nat) : ℤ)))
          (Text.lines Expansion.literalInBlock.render.toList) (Text.lines e'.render.toList) := by
  intro text
  have hexpand : expand "spread" text (some "rust") {} "<input>" = .ok .literalInBlock := by
    decide +kernel
  exact ⟨hexpand, expand_indent_is_cosmetic hexpand 3⟩

end FieldComposition
