import FieldComposition.Proofs.SeparableCode

/-!
# Marked code

The python code of an expansion is built from the words of templates, from attributes of the
modules that it imports and from what the script carries: names, types, paths and texts. `Marked` is
code in which these are told apart. No word contains the name of an attribute
(`Python.TemplateWord.not_infix`), and the marked code of a script is laid out as its draft is
(`Python.Script.map_render_markedStatements`, `Python.Script.map_render_markedResult`).
-/

namespace FieldComposition

@[simp] lemma Code.toList_render_host (tab s : String) :
    ((Code.host s).render tab).toList = s.toList := rfl

namespace Python

/-- What emitted code takes from a module. -/
inductive Attribute where
  | clone | into | structUpdate | fieldChecks | typeVar | generic | dataclass | field
  deriving DecidableEq, Repr

namespace Attribute

def all : List Attribute :=
  [clone, into, structUpdate, fieldChecks, typeVar, generic, dataclass, field]

lemma mem_all (a : Attribute) : a ∈ all := by
  cases a <;> decide

def name : Attribute → String
  | clone => "clone"
  | into => "into"
  | structUpdate => "struct_update"
  | fieldChecks => "FieldChecks"
  | typeVar => "TypeVar"
  | generic => "Generic"
  | dataclass => "dataclass"
  | field => "field"

def module : Attribute → Module
  | clone | into | structUpdate | fieldChecks => .runtime
  | typeVar | generic => .typing
  | dataclass | field => .dataclasses

/-- An attribute as code refers to it; only the runtime module goes by another name. -/
def path (runtimeName : String) (a : Attribute) : String :=
  (if a.module = .runtime then runtimeName else a.module.name) ++ "." ++ a.name

end Attribute

/-- The fixed words that emitted code is put together from. -/
inductive TemplateWord where
  | nothing | newline | leftParen | rightParen | noArguments | leftBracket | basesEnd | comma
  | nextArgument | dot | colon | hasType | keywordMark | assignment | decorator | arrow
  | classWord | callHeader | returnWord | defaultFactory | openText | closeText | checkCall
  | nextAfterText | reportCall
  deriving DecidableEq, Repr

namespace TemplateWord

def all : List TemplateWord :=
  [nothing, newline, leftParen, rightParen, noArguments, leftBracket, basesEnd, comma,
   nextArgument, dot, colon, hasType, keywordMark, assignment, decorator, arrow, classWord,
   callHeader, returnWord, defaultFactory, openText, closeText, checkCall, nextAfterText,
   reportCall]

lemma mem_all (w : TemplateWord) : w ∈ all := by
  cases w <;> decide

@[simp]
def text : TemplateWord → String
  | nothing => ""
  | newline => "\n"
  | leftParen => "("
  | rightParen => ")"
  | noArguments => "()"
  | leftBracket => "["
  | basesEnd => "]):"
  | comma => ","
  | nextArgument => ", "
  | dot => "."
  | colon => ":"
  | hasType => ": "
  | keywordMark => "="
  | assignment => " = "
  | decorator => "@"
  | arrow => " -> "
  | classWord => "class "
  | callHeader => "def call("
  | returnWord => "return "
  | defaultFactory => "(default_factory=lambda: "
  | openText => "(\""
  | closeText => "\")"
  | checkCall => ".check(\""
  | nextAfterText => "\", "
  | reportCall => ".report("

/-- No template writes the name of an attribute. -/
lemma not_infix (w : TemplateWord) (a : Attribute) : ¬a.name.toList <:+: w.text.toList := by
  have hall : ∀ w ∈ all, ∀ a ∈ Attribute.all, ¬a.name.toList <:+: w.text.toList := by
    decide +kernel
  exact hall w w.mem_all a a.mem_all

end TemplateWord

/-- Code in which the words of templates, what a script carries and the attributes of modules are
told apart. -/
inductive Marked where
  | word (w : TemplateWord)
  | carried (s : String)
  | taken (a : Attribute)
  | append (first second : Marked)
  | indented (body : Marked)

namespace Marked

instance : Append Marked := ⟨append⟩

def render (tab runtimeName : String) : Marked → String
  | word w => w.text
  | carried s => s
  | taken a => a.path runtimeName
  | append first second => first.render tab runtimeName ++ second.render tab runtimeName
  | indented body => Text.indent tab (body.render tab runtimeName)

/-- The words of templates, in order. -/
def words : Marked → List TemplateWord
  | word w => [w]
  | carried _ | taken _ => []
  | append first second => first.words ++ second.words
  | indented body => body.words

/-- The attributes of modules, in order. -/
def attributes : Marked → List Attribute
  | word _ | carried _ => []
  | taken a => [a]
  | append first second => first.attributes ++ second.attributes
  | indented body => body.attributes

def joined (separator : Marked) : List Marked → Marked
  | [] => word .nothing
  | [piece] => piece
  | piece :: rest => piece ++ separator ++ joined separator rest

def stacked (pieces : List Marked) : Marked :=
  joined (word .newline) pieces

/-- A call with its arguments on lines of their own. -/
def call (callee : Marked) (args : List Marked) : Marked :=
  if args.isEmpty then callee ++ word .noArguments
  else stacked
    [callee ++ word .leftParen, indented (stacked (args.map (· ++ word .comma))), word .rightParen]

/-- Marked code is laid out as a piece of code is. -/
def Shows (runtimeName : String) (m : Marked) (c : Code) : Prop :=
  ∀ tab, m.render tab runtimeName = c.render tab

end Marked

/-! ### Marked code of scripts -/

section

open Marked

def Term.marked : Term → Marked
  | operand (.host text) => carried text
  | operand (.field owner name) => carried owner ++ word .dot ++ carried name
  | clone value => taken .clone ++ word .leftParen ++ value.marked ++ word .rightParen
  | convert value target field =>
    taken .into ++ word .leftParen ++ value.marked ++ word .nextArgument ++ carried target ++
      word .nextArgument ++ carried (Text.quoted field) ++ word .rightParen
  | apply path value => carried path ++ word .leftParen ++ value.marked ++ word .rightParen

def Keyword.marked (k : Keyword) : Marked :=
  carried k.name ++ word .keywordMark ++ k.value.marked

def Computation.marked : Computation → Marked
  | term t => t.marked
  | host text => carried text
  | construct callee keywords => Marked.call (carried callee) (keywords.map Keyword.marked)
  | update callee base keywords =>
    Marked.call (taken .structUpdate)
      (carried callee :: carried base :: keywords.map Keyword.marked)
  | fieldChecks left right =>
    taken .fieldChecks ++ word .leftParen ++ carried left ++ word .nextArgument ++
      carried right ++ word .rightParen

namespace ClassDef

def markedHead (d : ClassDef) : Marked :=
  match d.typeParameters with
  | some params =>
    word .classWord ++ carried d.name ++ word .leftParen ++ taken .generic ++ word .leftBracket ++
      carried (", ".intercalate params) ++ word .basesEnd
  | none => word .classWord ++ carried d.name ++ word .colon

def markedField (f : Field) : Marked :=
  let declared := carried f.name ++ word .hasType ++ carried f.type
  match f.default with
  | some default =>
    declared ++ word .assignment ++ taken .field ++ word .defaultFactory ++
      carried default.text ++ word .rightParen
  | none => declared

def markedMethod (m : Method) : List Marked :=
  let returns := match m.returnType with
    | some type => word .arrow ++ carried type
    | none => word .nothing
  [indented (word .callHeader ++ carried (", ".intercalate m.parameters) ++ word .rightParen ++
     returns ++ word .colon),
   indented (indented (word .returnWord ++ carried m.callee ++ word .leftParen ++
     Marked.joined (word .nextArgument) (m.args.map Term.marked) ++ word .rightParen))]

/-- The method of a class, after a blank line if there are fields. -/
def markedMethods (d : ClassDef) : List Marked :=
  match d.method with
  | some m => (if d.fields.isEmpty then [] else [word .nothing]) ++ markedMethod m
  | none => []

def marked (d : ClassDef) : List Marked :=
  [word .decorator ++ taken .dataclass, d.markedHead] ++
    d.fields.map (fun f => indented (markedField f)) ++ d.markedMethods

end ClassDef

def Line.marked : Line → List Marked
  | blank => [word .nothing]
  | typeVariable name =>
    [carried name ++ word .assignment ++ taken .typeVar ++ word .openText ++ carried name ++
      word .closeText]
  | classDef d => d.marked
  | assign name value => [carried name ++ word .assignment ++ value.marked]
  | check checks left right field =>
    [carried checks ++ word .checkCall ++ carried field ++ word .nextAfterText ++ carried left ++
      word .dot ++ carried field ++ word .nextArgument ++ carried right ++ word .dot ++
      carried field ++ word .rightParen]
  | report checks args =>
    [carried checks ++ word .reportCall ++
      Marked.joined (word .nextArgument) (args.map fun arg => carried arg.text) ++ word .rightParen]

namespace Script

/-- The statements of a script as marked code. -/
def markedStatements (s : Script) : List Marked :=
  s.blocks.map fun block => stacked (block.flatMap Line.marked)

/-- The statements and the result of a script as marked code. -/
def marked (s : Script) : List Marked :=
  s.markedStatements ++ s.result.toList.map Computation.marked

/-- The attributes of modules that the code of a script uses. -/
def attributes (s : Script) : List Attribute :=
  s.marked.flatMap Marked.attributes

end Script

end

/-! ### Layout of marked code -/

namespace Marked

section

variable (tab r : String)

@[simp] lemma render_word (w : TemplateWord) : (word w).render tab r = w.text := rfl

@[simp] lemma render_carried (s : String) : (carried s).render tab r = s := rfl

@[simp] lemma render_taken (a : Attribute) : (taken a).render tab r = a.path r := rfl

@[simp] lemma render_append (first second : Marked) :
    (first ++ second).render tab r = first.render tab r ++ second.render tab r := rfl

end

variable {r : String} {m m' : Marked} {c c' : Code}

lemma Shows.append (h : Shows r m c) (h' : Shows r m' c') : Shows r (m ++ m') (c ++ c') := by
  intro tab
  change m.render tab r ++ m'.render tab r = c.render tab ++ c'.render tab
  rw [h tab, h' tab]

lemma Shows.indented (h : Shows r m c) : Shows r (.indented m) (.indented c) := by
  intro tab
  change Text.indent tab (m.render tab r) = Text.indent tab (c.render tab)
  rw [h tab]

lemma shows_word (w : TemplateWord) : Shows r (word w) (.text w.text) :=
  fun _ => rfl

lemma Shows.joined {ms : List Marked} {cs : List Code} (separator : TemplateWord)
    (h : List.Forall₂ (Shows r) ms cs) :
    Shows r (Marked.joined (word separator) ms) (Code.joined separator.text cs) := by
  induction h with
  | nil => exact shows_word .nothing
  | cons h hrest ih =>
    cases hrest with
    | nil => exact h
    | cons => exact (h.append (shows_word separator)).append ih

lemma forall₂_shows_map {α : Type} {f : α → Marked} {g : α → Code} {l : List α}
    (h : ∀ x, Shows r (f x) (g x)) : List.Forall₂ (Shows r) (l.map f) (l.map g) := by
  rw [List.forall₂_map_left_iff, List.forall₂_map_right_iff, List.forall₂_same]
  exact fun x _ => h x

lemma Shows.call {ms : List Marked} {cs : List Code} (h : Shows r m c)
    (hargs : List.Forall₂ (Shows r) ms cs) : Shows r (call m ms) (Python.call c cs) := by
  have hlines : Shows r (Marked.indented (stacked (ms.map (· ++ word .comma))))
      (Code.indentedLines (cs.map (· ++ .text ","))) := by
    refine (Shows.joined .newline ?_).indented
    rw [List.forall₂_map_left_iff, List.forall₂_map_right_iff]
    exact hargs.imp fun _ _ h => h.append (shows_word .comma)
  have hempty : ms.isEmpty = cs.isEmpty := by
    cases hargs <;> rfl
  rw [Marked.call, Python.call, hempty]
  split
  · exact h.append (shows_word .noArguments)
  · have hlast : List.Forall₂ (Shows r) [word .rightParen] [.text ")"] :=
      .cons (shows_word .rightParen) .nil
    exact Shows.joined .newline (.cons (h.append (shows_word .leftParen)) (.cons hlines hlast))

end Marked

@[simp] lemma Attribute.toList_path (r : String) (a : Attribute) :
    (a.path r).toList =
      (if a.module = .runtime then r else a.module.name).toList ++ '.' :: a.name.toList := by
  simp [path]

lemma Term.shows_marked (r : String) (t : Term) : t.marked.Shows r (t.code r) := by
  induction t with
  | operand o =>
    cases o with
    | host text => exact fun _ => rfl
    | field owner name => exact fun _ => rfl
  | clone value ih =>
    intro tab
    rw [← String.toList_inj]
    simp [marked, code, ih tab, Attribute.module, Attribute.name]
  | convert value target field ih =>
    intro tab
    rw [← String.toList_inj]
    simp [marked, code, ih tab, Attribute.module, Attribute.name]
  | apply path value ih =>
    intro tab
    rw [← String.toList_inj]
    simp [marked, code, ih tab]

lemma Keyword.shows_marked (r : String) (k : Keyword) :
    k.marked.Shows r (Computation.keyword r k) :=
  (show Marked.Shows r (.carried k.name ++ .word .keywordMark) (.text (k.name ++ "=")) from
    fun _ => rfl).append (k.value.shows_marked r)

lemma Computation.shows_marked (r : String) (v : Computation) : v.marked.Shows r (v.code r) := by
  cases v with
  | term t => exact t.shows_marked r
  | host text => exact fun _ => rfl
  | construct callee keywords =>
    exact Marked.Shows.call (fun _ => rfl) (Marked.forall₂_shows_map (Keyword.shows_marked r))
  | update callee base keywords =>
    refine Marked.Shows.call (fun _ => ?_) (.cons (fun _ => rfl) (.cons (fun _ => rfl)
      (Marked.forall₂_shows_map (Keyword.shows_marked r))))
    rw [← String.toList_inj]
    simp [Attribute.module, Attribute.name]
  | fieldChecks left right =>
    intro tab
    rw [← String.toList_inj]
    simp [marked, code, Attribute.module, Attribute.name]

namespace ClassDef

lemma shows_markedHead (r : String) (d : ClassDef) : d.markedHead.Shows r (.text d.head) := by
  intro tab
  rw [← String.toList_inj, markedHead, head]
  cases d.typeParameters with
  | none => simp
  | some params => simp [Attribute.module, Attribute.name, Module.name]

lemma shows_markedField (r : String) (f : Field) : (markedField f).Shows r (fieldLine f) := by
  intro tab
  rw [← String.toList_inj, markedField, fieldLine]
  cases f.default with
  | none => simp
  | some default => simp [Attribute.module, Attribute.name, Module.name]

lemma shows_markedMethod (r : String) (m : Method) :
    List.Forall₂ (Marked.Shows r) (markedMethod m) (methodLines r m) := by
  have hargs := Marked.Shows.joined .nextArgument
    (Marked.forall₂_shows_map (l := m.args) (Term.shows_marked r))
  have hclose := Marked.shows_word (r := r) .rightParen
  refine .cons (Marked.Shows.indented fun tab => ?_) (.cons
    ((Marked.Shows.append (fun tab => ?_) hargs).append hclose).indented.indented .nil)
  · rw [← String.toList_inj]
    cases m.returnType with
    | none => simp
    | some type => simp
  · rw [← String.toList_inj]
    simp

lemma shows_marked (r : String) (d : ClassDef) :
    List.Forall₂ (Marked.Shows r) d.marked (d.lines r) := by
  refine List.rel_append (List.rel_append (.cons (fun _ => rfl) (.cons (d.shows_markedHead r) .nil))
    (Marked.forall₂_shows_map fun f => (shows_markedField r f).indented)) ?_
  rw [markedMethods]
  cases d.method with
  | none => exact .nil
  | some m =>
    refine List.rel_append ?_ (shows_markedMethod r m)
    by_cases hfields : d.fields.isEmpty
    · simp only [hfields, if_true]
      exact .nil
    · simp only [hfields]
      exact .cons (Marked.shows_word .nothing) .nil

end ClassDef

lemma Line.shows_marked (r : String) (line : Line) :
    List.Forall₂ (Marked.Shows r) line.marked (line.code r) := by
  cases line with
  | blank => exact .cons (Marked.shows_word .nothing) .nil
  | typeVariable name =>
    refine .cons (fun tab => ?_) .nil
    rw [← String.toList_inj]
    simp [Attribute.module, Attribute.name, Module.name]
  | classDef d => exact d.shows_marked r
  | assign name value =>
    exact .cons (Marked.Shows.append (fun _ => rfl) (value.shows_marked r)) .nil
  | check checks left right field =>
    refine .cons (fun tab => ?_) .nil
    rw [← String.toList_inj]
    simp
  | report checks args =>
    have hargs := Marked.Shows.joined (r := r) .nextArgument
      (Marked.forall₂_shows_map (f := fun arg : Expression => Marked.carried arg.text)
        (g := fun arg => Code.host arg.text) (l := args) fun _ _ => rfl)
    have hclose := Marked.shows_word (r := r) .rightParen
    exact .cons ((Marked.Shows.append (fun _ => rfl) hargs).append hclose) .nil

namespace Script

lemma map_render_markedStatements (tab r : String) (s : Script) :
    s.markedStatements.map (·.render tab r) = (s.draft r).statements.map (·.render tab) := by
  simp only [markedStatements, draft, List.map_map]
  refine List.map_congr_left fun block _ => ?_
  refine Marked.Shows.joined .newline ?_ tab
  exact List.rel_flatMap (List.forall₂_same.mpr fun _ _ => rfl)
    fun line _ heq => heq ▸ line.shows_marked r

lemma map_render_markedResult (tab r : String) (s : Script) :
    (s.result.map Computation.marked).map (·.render tab r) =
      (s.draft r).expression.map (·.render tab) := by
  cases hresult : s.result with
  | none => simp [draft, hresult]
  | some v => simp [draft, hresult, v.shows_marked r tab]

end Script

end Python

end FieldComposition
