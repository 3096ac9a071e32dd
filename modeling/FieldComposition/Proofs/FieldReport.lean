import FieldComposition.FieldChecks
import FieldComposition.Proofs.FallibleWalk

/-!
# Reports of field checks

Field checks end in a report on all comparisons (`FieldChecks.report_spec`). When something differs,
the report is written around the message of the caller, and a message with arguments is a template.
A template that cannot be filled in hides what differs, and so does an integer that is too long to
be written. For templates whose fields take the next argument (`Template.plain`) and arguments that
can be written the first is the case exactly if there are more fields than arguments
(`FieldChecks.report_plain`).
-/

namespace FieldComposition

namespace Template

/-- A part of a plain template: a character, or a field that takes the next argument. -/
inductive Part where
  | char (c : Char)
  | next
  deriving DecidableEq, Repr

/-- How a part is written; a brace is written twice. -/
def Part.spell : Part → List Char
  | char c => if c = '{' ∨ c = '}' then [c, c] else [c]
  | next => ['{', '}']

/-- The template of some parts. -/
def plain (parts : List Part) : String :=
  String.ofList (parts.flatMap Part.spell)

/-- The number of arguments that parts take. -/
def fieldCount (parts : List Part) : Nat :=
  parts.count .next

/-- The text of some parts, each field as the argument in its place displays. -/
def written (args : List Value) : List Part → Except TemplateFault String
  | [] => .ok ""
  | .char c :: parts => (written args parts).map (String.singleton c ++ ·)
  | .next :: parts =>
    match args with
    | [] => .error .noArgument
    | v :: args =>
      if v.isWritable then (written args parts).map (v.display ++ ·) else .error .overlong

/-- How fields are numbered behind some that took the next argument. -/
def numberingBehind : Nat → Numbering
  | 0 => .undecided
  | n + 1 => .automatic (n + 1)

variable {args : List Value} {depth n : Nat} {rest : List Char}

/-- A character other than a brace stands for itself, and a brace that is written twice does. -/
lemma fillFrom_spell_char (c : Char) :
    fillFrom args depth (numberingBehind n) ((Part.char c).spell ++ rest) =
      (fillFrom args depth (numberingBehind n) rest).map
        fun filled => (String.singleton c ++ filled.1, filled.2) := by
  by_cases hbrace : c = '{' ∨ c = '}'
  · have hspell : (Part.char c).spell = [c, c] := if_pos hbrace
    have htwice : ((c = '{' || c = '}') && (c :: rest).head? == some c) = true := by
      simpa using hbrace
    rw [hspell, List.cons_append, List.cons_append, List.nil_append, fillFrom, if_pos htwice,
      List.drop_one, List.tail_cons]
    cases fillFrom args depth (numberingBehind n) rest <;> rfl
  · have hspell : (Part.char c).spell = [c] := if_neg hbrace
    obtain ⟨hopen, hclose⟩ := not_or.mp hbrace
    rw [hspell, List.cons_append, List.nil_append, fillFrom, if_neg (by simp [hopen, hclose]),
      if_neg hopen, if_neg hclose]
    cases fillFrom args depth (numberingBehind n) rest <;> rfl

/-- A field that only names the next argument displays it. -/
lemma fillFrom_spell_next :
    fillFrom args depth (numberingBehind n) (Part.next.spell ++ rest) =
      match args[n]? with
      | none => .error .noArgument
      | some v =>
        if v.isWritable then (fillFrom args depth (numberingBehind (n + 1)) rest).map
          fun filled => (v.display ++ filled.1, filled.2)
        else .error .overlong := by
  have hargument : argument args (numberingBehind n) [] =
      match args[n]? with
      | none => .error .noArgument
      | some v => .ok (v, numberingBehind (n + 1)) := by
    have hindex : argumentIndex (numberingBehind n) [] = .ok (n, numberingBehind (n + 1)) := by
      cases n <;> rfl
    rw [argument, List.takeWhile_nil, hindex]
    simp only [bind, Except.bind]
    cases args[n]? with
    | none => rfl
    | some v => simp [access, pure, Except.pure]
  change fillFrom args depth (numberingBehind n) ('{' :: '}' :: rest) = _
  have hfield : readField? ('}' :: rest) = some { name := [], size := 1 } := rfl
  rw [fillFrom, if_neg (by simp), if_pos rfl, hfield]
  simp only [bind, Except.bind, hargument]
  cases args[n]? with
  | none => rfl
  | some v =>
    simp only [convert, List.contains_nil, Bool.false_eq_true, if_false, Value.format,
      List.isEmpty_nil, if_true, List.drop_one, List.tail_cons]
    split_ifs
    · cases fillFrom args depth (numberingBehind (n + 1)) rest <;> rfl
    · rfl

/-- A plain template is filled in part by part, by induction on the parts that are left. -/
lemma fillFrom_plain (args : List Value) (depth n : Nat) (parts : List Part) :
    fillFrom args depth (numberingBehind n) (parts.flatMap Part.spell) =
      (written (args.drop n) parts).map fun text =>
        (text, numberingBehind (n + fieldCount parts)) := by
  induction parts generalizing n with
  | nil => rw [List.flatMap_nil, fillFrom]; rfl
  | cons part parts ih =>
    rw [List.flatMap_cons]
    cases part with
    | char c =>
      have hcount : fieldCount (.char c :: parts) = fieldCount parts := by
        rw [fieldCount, List.count_cons_of_ne (by simp), fieldCount]
      rw [fillFrom_spell_char, ih, written, hcount]
      cases written (args.drop n) parts <;> rfl
    | next =>
      have hcount : n + fieldCount (.next :: parts) = n + 1 + fieldCount parts := by
        rw [fieldCount, List.count_cons_self, fieldCount]
        omega
      rw [fillFrom_spell_next, ih, hcount]
      cases hn : args[n]? with
      | none =>
        rw [List.drop_eq_nil_of_le (List.getElem?_eq_none_iff.mp hn)]
        rfl
      | some v =>
        obtain ⟨hlt, hv⟩ := List.getElem?_eq_some_iff.mp hn
        rw [List.drop_eq_getElem_cons hlt, hv, written]
        dsimp only
        split_ifs
        · cases written (args.drop (n + 1)) parts <;> rfl
        · rfl

lemma fill_plain (args : List Value) (parts : List Part) :
    fill (plain parts) args = written args parts := by
  rw [fill, plain, String.toList_ofList]
  change (fillFrom args 1 (numberingBehind 0) _).map _ = _
  rw [fillFrom_plain, List.drop_zero]
  cases written args parts <;> rfl

/-- A plain template whose arguments can be written cannot be filled in exactly if some field has no
argument. -/
lemma written_eq_error_iff {parts : List Part} {fault : TemplateFault}
    (hargs : ∀ v ∈ args, v.isWritable) :
    written args parts = .error fault ↔
      fault = .noArgument ∧ args.length < fieldCount parts := by
  induction parts generalizing args with
  | nil => simp [written, fieldCount]
  | cons part parts ih =>
    cases part with
    | char c =>
      have hcount : fieldCount (.char c :: parts) = fieldCount parts := by
        rw [fieldCount, List.count_cons_of_ne (by simp), fieldCount]
      rw [hcount, ← ih hargs, written]
      cases written args parts <;> simp [Except.map]
    | next =>
      have hcount : fieldCount (.next :: parts) = fieldCount parts + 1 := by
        rw [fieldCount, List.count_cons_self, fieldCount]
      rw [hcount]
      cases args with
      | nil => simp [written, eq_comm]
      | cons v args =>
        obtain ⟨hv, hargs⟩ := List.forall_mem_cons.mp hargs
        rw [List.length_cons, Nat.add_lt_add_iff_right, ← ih hargs, written, if_pos hv]
        cases written args parts <;> simp [Except.map]

end Template

namespace FieldChecks

/-- The checks of two records after some calls. -/
def afterCalls (actual expected : Value) (calls : List Comparison) : FieldChecks :=
  calls.foldl (fun checks c => checks.check c.name c.actual c.expected) ⟨actual, expected, []⟩

/-- What a report says for the caller: nothing, a text as it is when there are no arguments, or a
template that is filled in. -/
inductive Says : Value → List Value → List String → Prop where
  | nothing (args : List Value) : Says .nothing args []
  | plain (s : String) : Says (.text s) [] [s]
  | filled (s : String) (args : List Value) (text : String) : args ≠ [] →
      Template.fill s args = .ok text → Says (.text s) args [text]

variable {layout : Value → String} {actual expected message : Value} {args : List Value}
  {calls : List Comparison}

lemma fillMessage_eq_ok_iff {said : List String} :
    (∃ filled, fillMessage message args = .ok filled ∧ messageLines filled = .ok said) ↔
      Says message args said := by
  constructor
  · rintro ⟨filled, hfill, hlines⟩
    cases message with
    | nothing =>
      obtain rfl := Except.ok.inj hfill
      obtain rfl := Except.ok.inj hlines
      exact .nothing args
    | text s =>
      rw [fillMessage] at hfill
      split_ifs at hfill with hargs
      · obtain rfl := Except.ok.inj hfill
        obtain rfl := Except.ok.inj hlines
        obtain rfl : args = [] := List.isEmpty_iff.mp hargs
        exact .plain s
      · cases htemplate : Template.fill s args with
        | error fault =>
          rw [htemplate] at hfill
          exact absurd hfill nofun
        | ok text =>
          rw [htemplate] at hfill
          obtain rfl := Except.ok.inj hfill
          obtain rfl := Except.ok.inj hlines
          exact .filled s args text (by simpa using hargs) htemplate
    | bool | int | real | list | dict | record | symbol =>
      -- Without arguments such a message is only refused where its lines are put together.
      simp only [fillMessage] at hfill
      split_ifs at hfill
      obtain rfl := Except.ok.inj hfill
      exact absurd hlines nofun
  · rintro (_ | _ | ⟨s, args, text, hargs, htemplate⟩)
    · exact ⟨_, rfl, rfl⟩
    · exact ⟨_, rfl, rfl⟩
    · refine ⟨.text text, ?_, rfl⟩
      rw [fillMessage, if_neg (by simpa using hargs), htemplate]
      rfl

lemma mismatchLine_eq_ok_iff {c : Comparison} {line : String} :
    mismatchLine c = .ok line ↔ c.isWritable ∧ c.line = line := by
  rw [mismatchLine]
  split <;> simp_all

lemma mapM_mismatchLine_eq_ok_iff {lines : List String} :
    calls.mapM mismatchLine = .ok lines ↔
      (∀ c ∈ calls, c.isWritable) ∧ lines = calls.map Comparison.line := by
  rw [mapM_eq_ok_iff]
  simp only [mismatchLine_eq_ok_iff]
  rw [List.forall₂_and_left, ← List.forall₂_map_left_iff (R := (· = ·)), List.forall₂_eq_eq_eq,
    eq_comm (a := lines)]

/-- Every call adds one comparison behind the others. -/
lemma afterCalls_eq (actual expected : Value) (calls : List Comparison) :
    afterCalls actual expected calls = ⟨actual, expected, calls⟩ := by
  have hfold : ∀ before : List Comparison,
      calls.foldl (fun checks c => checks.check c.name c.actual c.expected)
        (⟨actual, expected, before⟩ : FieldChecks) = ⟨actual, expected, before ++ calls⟩ := by
    induction calls with
    | nil => simp
    | cons c calls ih =>
      intro before
      rw [List.foldl_cons, check, ih, List.append_assoc, List.singleton_append]
  exact hfold []

/-- The text of a report: what differs in one line, the words of the caller, what differs one by
one, and both records as they are laid out. -/
def failureText (layout : Value → String) (actual expected : Value)
    (mismatches : List Comparison) (said : List String) : String :=
  "\n".intercalate <|
    ["assertion `actual == expected` failed for field(s) " ++
      ", ".intercalate (mismatches.map (·.name))] ++ said ++
    mismatches.map (fun c => "  " ++ c.name ++ ": " ++ c.actual.render ++ " != " ++
      c.expected.render) ++
    ["  actual:", Text.indent "    " (layout actual), "  expected:",
      Text.indent "    " (layout expected)]

/-- A description is written exactly if all that differs can be written and there is something to
say for the caller. -/
lemma describe_eq_ok_iff {checks : FieldChecks} {text : String} :
    checks.describe layout message args = .ok text ↔
      (∀ c ∈ checks.mismatches, c.isWritable) ∧ ∃ said, Says message args said ∧
        text = failureText layout checks.actual checks.expected checks.mismatches said := by
  simp only [describe, bind_eq_ok_iff, mapM_mismatchLine_eq_ok_iff, ← fillMessage_eq_ok_iff]
  constructor
  · rintro ⟨filled, hfilled, _, ⟨hwritable, rfl⟩, said, hsaid, h⟩
    exact ⟨hwritable, said, ⟨filled, hfilled, hsaid⟩, (Except.ok.inj h).symm⟩
  · rintro ⟨hwritable, said, ⟨filled, hfilled, hsaid⟩, rfl⟩
    exact ⟨filled, hfilled, _, ⟨hwritable, rfl⟩, said, hsaid, rfl⟩

/-- When something differs, a report fails with its description, or with what is wrong with that. -/
lemma report_eq_error_iff {checks : FieldChecks} (h : checks.passed = false)
    (layout : Value → String) (message : Value) (args : List Value) :
    checks.report layout message args ≠ .ok () ∧
      (∀ text, checks.report layout message args = .error (.differs text) ↔
        checks.describe layout message args = .ok text) ∧
      ∀ fault, checks.report layout message args = .error (.message fault) ↔
        checks.describe layout message args = .error fault := by
  rw [report, if_neg (by simp [h])]
  cases checks.describe layout message args <;> simp

/-- With a plain template and arguments that can be written, a report does not say what differs
exactly if there are fewer arguments than fields. -/
lemma report_plain (layout : Value → String) (actual expected : Value) {calls : List Comparison}
    {args : List Value} (hcalls : ∃ c ∈ calls, c.actual.equals c.expected = false)
    (hwritable : ∀ c ∈ calls, c.actual.isWritable ∧ c.expected.isWritable)
    (hargs : ∀ v ∈ args, v.isWritable) (hne : args ≠ []) (parts : List Template.Part) :
    let checks := afterCalls actual expected calls
    let report := checks.report layout (.text (Template.plain parts)) args
    (report = .error (.message (.template .noArgument)) ↔
      args.length < Template.fieldCount parts) ∧
    ((∃ text, report = .error (.differs text)) ↔ Template.fieldCount parts ≤ args.length) := by
  intro checks report
  have hpassed : FieldChecks.passed ⟨actual, expected, calls⟩ = false := by
    simpa [passed, mismatches, Comparison.holds] using hcalls
  have hfill : fillMessage (.text (Template.plain parts)) args =
      ((Template.written args parts).map .text).mapError .template := by
    rw [fillMessage, if_neg (by simpa using hne), Template.fill_plain]
  obtain ⟨differing, hdiffering⟩ :
      ∃ lines, (mismatches ⟨actual, expected, calls⟩).mapM mismatchLine = .ok lines := by
    refine ⟨_, mapM_mismatchLine_eq_ok_iff.mpr ⟨fun c hc => ?_, rfl⟩⟩
    rw [Comparison.isWritable, Bool.and_eq_true]
    exact hwritable c (List.mem_filter.mp hc).1
  obtain ⟨-, hdiffers, hmessage⟩ := report_eq_error_iff hpassed layout
    (.text (Template.plain parts)) args
  rw [show report = _ from congrArg (FieldChecks.report · layout _ args) (afterCalls_eq ..)]
  simp only [hdiffers, hmessage]
  rw [← Nat.not_lt, describe, hfill, hdiffering]
  cases hwritten : Template.written args parts with
  | ok text =>
    have henough : ¬args.length < Template.fieldCount parts := by
      intro hfew
      rw [(Template.written_eq_error_iff hargs).mpr ⟨rfl, hfew⟩] at hwritten
      exact absurd hwritten nofun
    simp [henough, Except.map, Except.mapError, bind, Except.bind, pure, Except.pure, messageLines]
  | error fault =>
    obtain ⟨rfl, hfew⟩ := (Template.written_eq_error_iff hargs).mp hwritten
    simp [hfew, Except.map, Except.mapError, bind, Except.bind]

end FieldChecks

end FieldComposition
