import FieldComposition.Proofs.CapturedExpressions
import FieldComposition.Proofs.GuardedOperands

/-!
# Names in the block of an assertion

The rust code of an assertion is a block that binds `left` and `right`, each twice, and it binds
`right` once more where the expected value is a record. A text of the caller that stands behind one
of these bindings and has the name as an identifier gets the bound value instead of the caller's
own (`expand_captures_names`).
-/

namespace FieldComposition

/-- The identifiers of a text, by itself; a text that is no list of tokens has none. -/
def Text.identifiers (host : Host) (s : String) : List String :=
  match Tokens.ofText host s with
  | .ok tokens => (tokens.body.filter (·.kind = .ident)).map Token.value
  | .error _ => []

namespace Code

/-- The name that code binds if it is a `let`. -/
def bound? (code : Code) : Option String :=
  if ['l', 'e', 't', ' '] <+: code.chars then
    some (String.ofList ((code.chars.drop 4).takeWhile Text.isWordChar))
  else none

variable {code : Code} {name : String}

lemma bound?_eq_some (hname : ∀ c ∈ name.toList, Text.isWordChar c)
    (h : ∃ rest, code.chars = ['l', 'e', 't', ' '] ++ (name.toList ++ ' ' :: rest)) :
    code.bound? = some name := by
  obtain ⟨rest, h⟩ := h
  have hdrop : (['l', 'e', 't', ' '] ++ (name.toList ++ ' ' :: rest)).drop 4 =
    name.toList ++ ' ' :: rest := rfl
  rw [bound?, h, if_pos (List.prefix_append ..), hdrop, List.takeWhile_append_of_pos hname,
    List.takeWhile_cons_of_neg (by decide), List.append_nil, String.ofList_toList]

lemma bound?_eq_none (h : code.chars.head? ≠ some 'l') : code.bound? = none := by
  rw [bound?, if_neg]
  rintro ⟨rest, hrest⟩
  rw [← hrest] at h
  exact h rfl

lemma exists_chars_enclosed (first : Code) (body : List Code) (last : Code) :
    ∃ rest, (enclosed first body last).chars = first.chars ++ rest := by
  have henclosed : enclosed first body last =
    first ++ text "\n" ++ (indentedLines body ++ text "\n" ++ last) := rfl
  rw [henclosed, chars_append, chars_append, List.append_assoc]
  exact ⟨_, rfl⟩

end Code

namespace Rust

open Code

/-- A statement of a block binds a name that is an identifier of a text of the caller behind it. -/
def Captures (statements : List Code) (name s : String) : Prop :=
  ∃ before statement after, statements = before ++ statement :: after ∧
    statement.bound? = some name ∧ s ∈ after.flatMap Code.hostPieces ∧
    name ∈ Text.identifiers (.dialect .rust) s

variable {settings : Settings} {name s side : String} {statement value : Code}
  {statements : List Code} {fields : List String}

lemma captures_nil_iff : Captures [] name s ↔ False := by
  refine iff_of_false ?_ not_false
  rintro ⟨before, statement, after, h, -⟩
  exact absurd h (by simp)

lemma captures_cons_iff : Captures (statement :: statements) name s ↔
    (statement.bound? = some name ∧ s ∈ statements.flatMap Code.hostPieces ∧
      name ∈ Text.identifiers (.dialect .rust) s) ∨ Captures statements name s := by
  constructor
  · rintro ⟨before, statement', after, h, hcaptures⟩
    cases before with
    | nil =>
      obtain ⟨rfl, rfl⟩ := List.cons.inj h
      exact .inl hcaptures
    | cons first before =>
      obtain ⟨rfl, rfl⟩ := List.cons.inj h
      exact .inr ⟨before, statement', after, rfl, hcaptures⟩
  · rintro (hcaptures | ⟨before, statement', after, rfl, hcaptures⟩)
    · exact ⟨[], statement, statements, rfl, hcaptures⟩
    · exact ⟨statement :: before, statement', after, rfl, hcaptures⟩

lemma bound?_letBinding (hname : ∀ c ∈ name.toList, Text.isWordChar c) :
    (letBinding name value).bound? = some name := by
  refine bound?_eq_some hname ⟨'=' :: ' ' :: (value.chars ++ [';']), ?_⟩
  simp [letBinding]

lemma bound?_projection (hside : ∀ c ∈ side.toList, Text.isWordChar c) :
    (projection side fields).bound? = some side := by
  obtain ⟨rest, hrest⟩ := exists_chars_enclosed (.text ("let " ++ side ++ " = Fields \x7b"))
    (fields.map fun field => .text (field ++ ": &(" ++ side ++ "." ++ field ++ "),"))
    (.text "\x7d;")
  refine bound?_eq_some hside ⟨"= Fields \x7b".toList ++ rest, ?_⟩
  rw [projection, hrest]
  simp

/-- The statements that compare the actual value with the one on the right. -/
def comparison (a : Assertion) (right : Code) : List Code :=
  [allowNaming, .text "#[derive(Debug, PartialEq, Eq)]",
   Code.braced (.text ("struct Fields<" ++ ", ".intercalate ("'a" :: a.fields) ++ ">"))
     (a.fields.map fun field => .text (field ++ ": &'a " ++ field ++ ",")),
   .text "", letBinding "left" (.text "&" ++ .host a.actual.text), projection "left" a.fields,
   .text "", letBinding "right" (.text "&" ++ right), projection "right" a.fields, .text "",
   .text "assert_eq!(" ++ Code.joined ", " ([.text "left", .text "right"] ++
     a.formatArgs.map fun arg => Code.host arg.text) ++ .text ");"]

/-- The statements in the block of an assertion. -/
def blockStatements (settings : Settings) (a : Assertion) (t : FieldTable) : List Code :=
  match a.expected with
  | .value expression _ => comparison a (.host expression.text)
  | .record _ =>
    letBinding "right" (anonRecord settings t) :: .text "" :: comparison a (.text "right")

lemma assertion_eq (settings : Settings) (a : Assertion) (t : FieldTable) :
    assertion settings a t = { statements := [block (blockStatements settings a t)] } := by
  rw [assertion, blockStatements]
  cases a.expected <;> rfl

/-- The names that the statements of an assertion bind, one for each of them at most. -/
lemma bound?_comparison (a : Assertion) (right : Code) :
    (comparison a right).map bound? = [none, none, none, none, some "left", some "left", none,
      some "right", some "right", none, none] := by
  have hleft : ∀ c ∈ "left".toList, Text.isWordChar c := by decide
  have hright : ∀ c ∈ "right".toList, Text.isWordChar c := by decide
  have hnaming : allowNaming.bound? = none := bound?_eq_none (by decide)
  have hderive : (Code.text "#[derive(Debug, PartialEq, Eq)]").bound? = none :=
    bound?_eq_none (by decide)
  have hblank : (Code.text "").bound? = none := bound?_eq_none (by decide)
  have hfields (generics : String) (body : List Code) :
      (Code.braced (.text ("struct Fields<" ++ generics ++ ">")) body).bound? = none := by
    obtain ⟨rest, hrest⟩ := exists_chars_enclosed
      (.text ("struct Fields<" ++ generics ++ ">") ++ .text " \x7b") body (.text "\x7d")
    refine bound?_eq_none ?_
    rw [Code.braced, hrest]
    simp
  have hcall (args : Code) : (Code.text "assert_eq!(" ++ args ++ .text ");").bound? = none :=
    bound?_eq_none (by simp)
  simp only [comparison, List.map_cons, List.map_nil, hnaming, hderive, hblank, hfields, hcall,
    bound?_letBinding hleft, bound?_letBinding hright, bound?_projection hleft,
    bound?_projection hright]

/-- The names that the statements of the block bind, in order. -/
lemma filterMap_bound?_blockStatements (settings : Settings) (a : Assertion) (t : FieldTable) :
    (blockStatements settings a t).filterMap bound? = (match a.expected with
      | .value .. => []
      | .record _ => ["right"]) ++ ["left", "left", "right", "right"] := by
  have hcomparison (right : Code) :
      (comparison a right).filterMap bound? = ["left", "left", "right", "right"] := by
    have hmap : (comparison a right).filterMap bound? =
        ((comparison a right).map bound?).filterMap id := by
      rw [List.filterMap_map, Function.id_comp]
    rw [hmap, bound?_comparison]
    rfl
  rw [blockStatements]
  cases a.expected with
  | value e fields => exact hcomparison _
  | record c =>
    have hright : ∀ c ∈ "right".toList, Text.isWordChar c := by decide
    rw [List.filterMap_cons_some (bound?_letBinding hright),
      List.filterMap_cons_none (bound?_eq_none (by decide)), hcomparison]
    rfl

lemma captures_comparison_iff (a : Assertion) (right : Code) :
    Captures (comparison a right) name s ↔
      name ∈ Text.identifiers (.dialect .rust) s ∧
        ((s ∈ right.hostPieces ∧ name = "left") ∨
          (s ∈ a.formatArgs.map Expression.text ∧ (name = "left" ∨ name = "right"))) := by
  have hbound := bound?_comparison a right
  simp only [comparison, List.map_cons, List.cons.injEq] at hbound
  simp only [comparison, captures_cons_iff, captures_nil_iff, hbound, reduceCtorEq, false_and,
    Option.some.injEq, or_false, false_or]
  simp only [letBinding, hostPieces_projection, hostPieces_append, hostPieces_text,
    hostPieces_joined, List.flatMap_cons, List.flatMap_nil, flatMap_hostPieces_host,
    List.nil_append, List.append_nil, List.flatMap_append, List.mem_append]
  grind

lemma hostPieces_comparison (a : Assertion) (right : Code) :
    (comparison a right).flatMap Code.hostPieces =
      a.actual.text :: (right.hostPieces ++ a.formatArgs.map Expression.text) := by
  simp [comparison, letBinding, allowNaming, hostPieces_projection]

/-- What the block of an assertion makes of the names that it binds: a side behind a binding is read
with the bound value, and so are the arguments of the message. -/
lemma captures_blockStatements_iff (settings : Settings) (a : Assertion) (t : FieldTable)
    (name s : String) :
    Captures (blockStatements settings a t) name s ↔
      name ∈ Text.identifiers (.dialect .rust) s ∧
        ((match a.expected with
          | .value e _ => s = e.text ∧ name = "left"
          | .record _ => s = a.actual.text ∧ name = "right") ∨
          s ∈ a.formatArgs.map Expression.text ∧ (name = "left" ∨ name = "right")) := by
  rw [blockStatements]
  cases a.expected with
  | value e fields => rw [captures_comparison_iff, hostPieces_host, List.mem_singleton]
  | record c =>
    have hright : ∀ c ∈ "right".toList, Text.isWordChar c := by decide
    dsimp only
    rw [captures_cons_iff, captures_cons_iff, captures_comparison_iff, bound?_letBinding hright,
      bound?_eq_none (by decide), List.flatMap_cons, hostPieces_comparison]
    simp only [hostPieces_text, List.nil_append, List.mem_cons, List.not_mem_nil, false_and,
      reduceCtorEq, Option.some.injEq, false_or]
    grind

end Rust

/-- The block of an assertion binds `left` and `right` around the texts of the caller. The expected
value has `left` in front of it, the actual value `right` where the expected one is a record, and
every argument of the message has both. A text takes the bound value exactly if the name is one of
its identifiers, which are those of the tokens that it was captured from. -/
theorem expand_captures_names {dialect? : Option Dialect} {settings : Settings}
    {file text : String} {expansion : Expansion} (hdialect : dialect?.getD settings.dialect = .rust)
    (h : expand EntryPoint.assertFieldsEq.name text (dialect?.map Dialect.name) settings file =
      .ok expansion) :
    ∃ a t tokens, Invocation.ofText .assertFieldsEq (.dialect .rust) text = .ok (.assertion a) ∧
      (Invocation.assertion a).table = .ok t ∧ Tokens.ofText (.dialect .rust) text = .ok tokens ∧
      (∀ e ∈ (Invocation.assertion a).expressions, e.IsCaptured (.dialect .rust) text tokens) ∧
      let statements := Rust.blockStatements settings a t
      expansion = Draft.layout { statements := [Code.block statements] } settings.tab
        .assertFieldsEq "rust" ∧
      statements.filterMap Code.bound? = (match a.expected with
        | .value .. => []
        | .record _ => ["right"]) ++ ["left", "left", "right", "right"] ∧
      ∀ name s, Rust.Captures statements name s ↔
        name ∈ Text.identifiers (.dialect .rust) s ∧
          ((match a.expected with
            | .value e _ => s = e.text ∧ name = "left"
            | .record _ => s = a.actual.text ∧ name = "right") ∨
            s ∈ a.formatArgs.map Expression.text ∧ (name = "left" ∨ name = "right")) := by
  obtain ⟨i, t, hread, ht, rfl⟩ := expand_eq_ok_iff.mp h
  rw [hdialect] at hread ⊢
  obtain ⟨tokens, htokens, hcaptured⟩ := Assertion.isCaptured_of_ofText hread
  have hwell := Invocation.isWellFormed_of_ofText hread
  cases i with
  | assertion a =>
    refine ⟨a, t, tokens, hread, ht, htokens, hcaptured, ?_,
      Rust.filterMap_bound?_blockStatements settings a t,
      Rust.captures_blockStatements_iff settings a t⟩
    rw [← Rust.assertion_eq]
    rfl
  | _ => exact hwell.elim

/-- The argument of the message is the caller's `right`, but it stands behind the block's own. -/
theorem expand_captures_names_argument :
    let text := "x, y, [a], right.b"
    ∃ a t, Invocation.ofText .assertFieldsEq (.dialect .rust) text = .ok (.assertion a) ∧
      (Invocation.assertion a).table = .ok t ∧
      a.formatArgs.map Expression.text = ["right.b"] ∧
      (∀ s, Rust.Captures (Rust.blockStatements {} a t) "right" s ↔ s = "right.b") ∧
      ∀ s, ¬Rust.Captures (Rust.blockStatements {} a t) "x" s := by
  intro text
  let a : Assertion := ⟨⟨"x", ⟨1, 1⟩⟩, .value ⟨"y", ⟨1, 4⟩⟩ ["a"], [⟨"right.b", ⟨1, 12⟩⟩]⟩
  have hread : Invocation.ofText .assertFieldsEq (.dialect .rust) text = .ok (.assertion a) := by
    decide +kernel
  have hexpand : expand EntryPoint.assertFieldsEq.name text (Option.map Dialect.name (some .rust)) {}
      "<input>" = .ok _ :=
    expand_eq_ok_iff.mpr ⟨_, _, hread, rfl, rfl⟩
  obtain ⟨a', t, tokens, hread', ht, -, -, -, -, hcaptures⟩ := expand_captures_names rfl hexpand
  rw [hread] at hread'
  obtain rfl := Invocation.assertion.inj (Except.ok.inj hread')
  refine ⟨a, t, hread, ht, rfl, fun s => ?_, fun s => ?_⟩
  · have hmem : "right" ∈ Text.identifiers (.dialect .rust) "right.b" := by decide +kernel
    rw [hcaptures]
    simp only [a, List.map_cons, List.map_nil, List.mem_singleton]
    constructor
    · rintro ⟨-, ⟨-, h⟩ | ⟨h, -⟩⟩
      · exact absurd h (by decide)
      · exact h
    · rintro rfl
      exact ⟨hmem, .inr ⟨rfl, .inr trivial⟩⟩
  · rw [hcaptures]
    rintro ⟨-, ⟨-, h⟩ | ⟨-, h | h⟩⟩ <;> exact absurd h (by decide)

/-- The actual value is the caller's `right`, but the block compares the expected value with
itself. -/
theorem captures_actual_right :
    let text := "right, \x7b a: 1 \x7d"
    ∃ a t, Invocation.ofText .assertFieldsEq (.dialect .rust) text = .ok (.assertion a) ∧
      (Invocation.assertion a).table = .ok t ∧ a.actual.text = "right" ∧
      Rust.Captures (Rust.blockStatements {} a t) "right" a.actual.text := by
  intro text
  let c : Composition := { items := [.entry
    { name := "a", value := some ⟨"1", ⟨1, 13⟩⟩, position := ⟨1, 10⟩ }] }
  have hread : Invocation.ofText .assertFieldsEq (.dialect .rust) text =
      .ok (.assertion ⟨⟨"right", ⟨1, 1⟩⟩, .record c, []⟩) := by
    decide +kernel
  refine ⟨_, _, hread, rfl, rfl, ?_⟩
  rw [Rust.captures_blockStatements_iff]
  exact ⟨by decide +kernel, .inl ⟨rfl, rfl⟩⟩

end FieldComposition
