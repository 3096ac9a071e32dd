import FieldComposition.Evaluation
import FieldComposition.Proofs.FallibleWalk

/-!
# Running lines

A line binds at most one word, and all other words keep what they stand for
(`Line.lookup_of_run`). So a word that several lines bind stands for what the last of them left it
(`readsField_append`). Words are the same when their normal forms are.
-/

namespace FieldComposition

namespace Scope

variable {s : Scope} {word other : String} {o : Object}

lemma lookup_put_self : (s.put word o).lookup word = .ok o := by
  simp [lookup, put, set, get?]

lemma lookup_put_of_ne (h : Text.normalize word ≠ Text.normalize other) :
    (s.put word o).lookup other = s.lookup other := by
  have hother (b : String × Object) : decide ((b.1 != Text.normalize word) = true ∧
      (b.1 == Text.normalize other) = true) = (b.1 == Text.normalize other) := by
    by_cases hb : b.1 = Text.normalize other
    · simp [hb, h.symm]
    · simp [hb]
  have hget : (s.put word o).get? (Text.normalize other) = s.get? (Text.normalize other) := by
    rw [put, set, get?, get?, List.find?_cons_of_neg (by simpa using h), List.find?_filter]
    exact congrArg (fun p => (s.bindings.find? p).map (·.2)) (funext hother)
  rw [lookup, lookup, hget]

end Scope

namespace Python

variable {lib : Libraries} {runtimeName : String} {s s' : Scope} {line : Line}
  {lines before after : List Line} {word text : String}

/-- The word that stands for something else after a line. -/
def Line.rebound? : Line → Option String
  | blank | report .. => none
  | typeVariable name | assign name _ => some name
  | classDef d => some d.name
  | check checks .. => some checks

lemma Line.run_assign {value : Computation}
    (h : (Line.assign word value).run lib runtimeName s = .ok s') :
    ∃ o, value.evaluate lib s runtimeName = .ok o ∧ s' = s.put word o := by
  obtain ⟨o, hvalue, h⟩ := bind_eq_ok_iff.mp h
  exact ⟨o, hvalue, (Except.ok.inj h).symm⟩

/-- What a line does to the scope. -/
lemma Line.eq_or_eq_put_of_run (h : line.run lib runtimeName s = .ok s') :
    s' = s ∨ ∃ word ∈ line.rebound?, ∃ o, s' = s.put word o := by
  cases line with
  | blank => exact .inl (Except.ok.inj h).symm
  | typeVariable name =>
    obtain ⟨_, -, h⟩ := bind_eq_ok_iff.mp h
    exact .inr ⟨name, rfl, _, (Except.ok.inj h).symm⟩
  | classDef d =>
    obtain ⟨c, -, h⟩ := bind_eq_ok_iff.mp h
    exact .inr ⟨d.name, rfl, _, (Except.ok.inj h).symm⟩
  | assign name value =>
    obtain ⟨o, -, rfl⟩ := Line.run_assign h
    exact .inr ⟨name, rfl, o, rfl⟩
  | check checks left right field =>
    obtain ⟨c, -, h⟩ := bind_eq_ok_iff.mp h
    obtain ⟨actual, -, h⟩ := bind_eq_ok_iff.mp h
    obtain ⟨expected, -, h⟩ := bind_eq_ok_iff.mp h
    exact .inr ⟨checks, rfl, _, (Except.ok.inj h).symm⟩
  | report checks args =>
    obtain ⟨c, -, h⟩ := bind_eq_ok_iff.mp h
    obtain ⟨values, -, h⟩ := bind_eq_ok_iff.mp h
    obtain ⟨_, -, h⟩ := bind_eq_ok_iff.mp h
    exact .inl (Except.ok.inj h).symm

/-- A line leaves all words but its own as they are. -/
lemma Line.lookup_of_run (h : line.run lib runtimeName s = .ok s')
    (hword : ∀ name ∈ line.rebound?, Text.normalize name ≠ Text.normalize word) :
    s'.lookup word = s.lookup word := by
  rcases Line.eq_or_eq_put_of_run h with rfl | ⟨name, hname, o, rfl⟩
  · rfl
  · exact Scope.lookup_put_of_ne (hword name hname)

lemma foldlM_run_cons (h : (line :: lines).foldlM (Line.run lib runtimeName) s = .ok s') :
    ∃ s₀, line.run lib runtimeName s = .ok s₀ ∧
      lines.foldlM (Line.run lib runtimeName) s₀ = .ok s' := by
  rw [List.foldlM_cons] at h
  exact bind_eq_ok_iff.mp h

lemma foldlM_run_append (h : (before ++ after).foldlM (Line.run lib runtimeName) s = .ok s') :
    ∃ s₀, before.foldlM (Line.run lib runtimeName) s = .ok s₀ ∧
      after.foldlM (Line.run lib runtimeName) s₀ = .ok s' := by
  rw [List.foldlM_append] at h
  exact bind_eq_ok_iff.mp h

/-- Lines leave the words that none of them binds as they are. -/
lemma lookup_of_foldlM_run (h : lines.foldlM (Line.run lib runtimeName) s = .ok s')
    (hword : ∀ name ∈ lines.filterMap Line.rebound?, Text.normalize name ≠ Text.normalize word) :
    s'.lookup word = s.lookup word := by
  induction lines generalizing s with
  | nil => rw [Except.ok.inj h]
  | cons line lines ih =>
    obtain ⟨s₀, hline, hlines⟩ := foldlM_run_cons h
    rw [ih hlines fun name hname => hword name ?_, Line.lookup_of_run hline fun name hname =>
      hword name ?_]
    · exact List.mem_filterMap.mpr ⟨line, List.mem_cons_self, hname⟩
    · obtain ⟨line', hline', hname⟩ := List.mem_filterMap.mp hname
      exact List.mem_filterMap.mpr ⟨line', List.mem_cons_of_mem _ hline', hname⟩

/-- However some lines are run, an operand is afterwards a field of what a text of the caller stood
for where one of the lines assigned it to a word. -/
def ReadsField (runtimeName : String) (lines : List Line) (o : Operand) (text name : String) :
    Prop :=
  ∀ lib s s', lines.foldlM (Line.run lib runtimeName) s = .ok s' →
    ∃ before word after s₀ source, lines = before ++ .assign word (.host text) :: after ∧
      before.foldlM (Line.run lib runtimeName) s = .ok s₀ ∧ evaluateHost s₀ text = .ok source ∧
      evaluateOperand s' o = source.member (Text.normalize name)

/-- The last line that binds a word decides what its fields are. -/
lemma readsField_append {name : String}
    (hafter : ∀ other ∈ after.filterMap Line.rebound?,
      Text.normalize other ≠ Text.normalize word) :
    ReadsField runtimeName (before ++ .assign word (.host text) :: after) (.field word name) text
      name := by
  intro lib s s' h
  obtain ⟨s₀, hbefore, hrest⟩ := foldlM_run_append h
  obtain ⟨s₁, hassign, hrest⟩ := foldlM_run_cons hrest
  obtain ⟨source, hvalue, rfl⟩ := Line.run_assign hassign
  refine ⟨before, word, after, s₀, source, rfl, hbefore, hvalue, ?_⟩
  have hlookup : s'.lookup word = .ok source := by
    rw [lookup_of_foldlM_run hrest hafter, Scope.lookup_put_self]
  rw [evaluateOperand, Scope.member, hlookup]
  rfl

end Python

end FieldComposition
