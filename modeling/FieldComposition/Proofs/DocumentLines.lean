import FieldComposition.Proofs.DocumentTables

/-!
# The lines of a document

A document is read line by line, each line being a statement or nothing (`Lines`), and the tables in
it are those that its statements name, unless an array stands on the way to them
(`exists_lines_of_parse`). A line that begins with a header of bare words is that header
(`Reader.eq_header_of_lineStatement`).
-/

namespace FieldComposition.Toml

/-- The lines of a text, each with the text from its first character on and the statement that it
is, if it is one. -/
inductive Lines : List Char → List (List Char × Option Statement) → Prop
  | last {cs : List Char} {statement : Option Statement} {h : [].length ≤ cs.length}
      (hline : lineStatement cs = .ok ⟨statement, [], h⟩) : Lines cs [(cs, statement)]
  | cons {cs rest : List Char} {statement : Option Statement}
      {h : ('\n' :: rest).length ≤ cs.length} {more : List (List Char × Option Statement)}
      (hline : lineStatement cs = .ok ⟨statement, '\n' :: rest, h⟩) (hmore : Lines rest more) :
      Lines cs ((cs, statement) :: more)

variable {d d' : Draft} {cs : List Char}

lemma addAll_filterMap_cons (line : List Char × Option Statement)
    (more : List (List Char × Option Statement)) :
    d.addAll ((line :: more).filterMap (·.2)) =
      (line.2.elim (some d) d.add).bind (·.addAll (more.filterMap (·.2))) := by
  obtain ⟨text, statement⟩ := line
  cases statement with
  | none => rfl
  | some statement => exact Draft.addAll_cons d statement _

/-- A text is read exactly if it consists of lines whose statements can be added one by one. -/
lemma read_eq_ok_iff :
    d.read cs = .ok d' ↔ ∃ lines, Lines cs lines ∧ d.addAll (lines.filterMap (·.2)) = some d' := by
  constructor
  · intro h
    fun_induction Draft.read d cs with
    | case3 d cs statement d₁ hadd _ _ hline =>
      injection h with h
      subst h
      refine ⟨_, .last hline, ?_⟩
      rw [addAll_filterMap_cons, hadd]
      rfl
    | case4 d cs statement d₁ hadd rest _ _ hline ih =>
      obtain ⟨lines, hlines, hmore⟩ := ih h
      refine ⟨_, .cons hline hlines, ?_⟩
      rw [addAll_filterMap_cons, hadd]
      exact hmore
    | _ => cases h
  · rintro ⟨lines, hlines, hadd⟩
    induction hlines generalizing d with
    | @last cs statement _ hline =>
      rw [addAll_filterMap_cons] at hadd
      obtain ⟨d₁, hadd, hmore⟩ := Option.bind_eq_some_iff.mp hadd
      cases hmore
      have hadd : statement.elim (some d) d.add = some d' := hadd
      rw [Draft.read, hline]
      dsimp only
      rw [hadd]
    | @cons cs rest statement _ _ hline _ ih =>
      rw [addAll_filterMap_cons] at hadd
      obtain ⟨d₁, hadd, hmore⟩ := Option.bind_eq_some_iff.mp hadd
      have hadd : statement.elim (some d) d.add = some d₁ := hadd
      rw [Draft.read, hline]
      dsimp only
      rw [hadd]
      exact ih hmore

/-- The tables of a document of which no part of the path is an array are those that a statement of
it names. -/
theorem exists_lines_of_parse {text : String} {document : Table}
    (h : parse text = .ok document) (path : List String) (hpath : path ≠ []) :
    ∃ lines, Lines text.toList lines ∧ ((Value.table document).HasTable path ↔
      Statement.AreNaming [] path (lines.filterMap (·.2)) ∧
        ∀ way, way <+: path → ¬(Value.table document).HasArray way) := by
  rw [parse] at h
  cases hread : Draft.read {} text.toList with
  | error fault =>
    rw [hread] at h
    cases h
  | ok d =>
    rw [hread] at h
    injection h with h
    subst h
    obtain ⟨lines, hlines, hadd⟩ := read_eq_ok_iff.mp hread
    have hempty : ¬(Value.table []).HasTable path := fun h => hpath (Value.hasTable_empty_iff.mp h)
    refine ⟨lines, hlines, ?_⟩
    constructor
    · intro htable
      have hway : ∀ way, way <+: path → ¬(Value.table d.root).HasArray way :=
        fun way h => (htable.of_prefix h).not_hasArray
      exact ⟨((Draft.hasTable_addAll_iff hadd hway).mp htable).resolve_left hempty, hway⟩
    · rintro ⟨hnaming, hway⟩
      exact (Draft.hasTable_addAll_iff hadd hway).mpr (.inr hnaming)

/-! ### Headers -/

/-- A word that is part of a key as it stands. -/
structure IsBareWord (word : List Char) : Prop where
  ne_nil : word ≠ []
  bare : ∀ d ∈ word, isBareKeyChar d

lemma IsBareWord.of_all {word : List Char} (hne : word ≠ []) (h : word.all isBareKeyChar) :
    IsBareWord word :=
  ⟨hne, List.all_eq_true.mp h⟩

namespace Reader

variable {α β : Type} {c : Char} {rest word : List Char}

/-- What a reader reads and leaves. -/
def run (p : Reader α) (cs : List Char) : Except Fault (α × List Char) :=
  (p cs).map fun r => (r.value, r.rest)

lemma run_bind (p : Reader α) (f : α → Reader β) (cs : List Char) :
    (p >>= f).run cs = (p.run cs).bind fun r => (f r.1).run r.2 := by
  change run (Reader.bind p f) cs = _
  rw [run, run, Reader.bind]
  cases p cs with
  | error fault => rfl
  | ok r =>
    change ((f r.value r.rest).map (·.weaken r.length_le)).map (fun r => (r.value, r.rest)) =
      (f r.value r.rest).map fun r => (r.value, r.rest)
    cases f r.value r.rest <;> rfl

lemma run_pure (a : α) (cs : List Char) : (pure a : Reader α).run cs = .ok (a, cs) :=
  rfl

lemma run_peek (cs : List Char) : peek.run cs = .ok (cs.head?, cs) :=
  rfl

lemma run_takeWhile (p : Char → Bool) (cs : List Char) :
    (takeWhile p).run cs = .ok (cs.takeWhile p, cs.dropWhile p) :=
  rfl

lemma run_spaces (cs : List Char) : spaces.run cs = .ok ((), cs.dropWhile isSpace) :=
  rfl

/-- A bare word ends where a character follows that is none of a bare word. -/
lemma run_keyPart (hword : IsBareWord word) (hc : isBareKeyChar c = false) :
    keyPart.run (word ++ c :: rest) = .ok (String.ofList word, c :: rest) := by
  have hread : (do
      let name ← takeWhile isBareKeyChar
      if name.isEmpty then fail
      return String.ofList name : Reader String).run (word ++ c :: rest) =
        .ok (String.ofList word, c :: rest) := by
    rw [run_bind, run_takeWhile, List.takeWhile_append_of_pos hword.bare,
      List.dropWhile_append_of_pos hword.bare, List.takeWhile_cons_of_neg (by simp [hc]),
      List.dropWhile_cons_of_neg (by simp [hc]), List.append_nil]
    change Reader.run (if word.isEmpty then _ else _) (c :: rest) = _
    rw [if_neg (by simpa using hword.ne_nil)]
    rfl
  obtain ⟨w, more, rfl⟩ := List.exists_cons_of_ne_nil hword.ne_nil
  have hw := hword.bare w List.mem_cons_self
  rw [keyPart, run_bind, run_peek]
  dsimp only [List.cons_append, List.head?_cons, Except.bind]
  split
  · cases ‹some w = _›
    cases hw
  · cases ‹some w = _›
    cases hw
  · exact hread

lemma run_accepts_of_not_prefix {part cs : List Char} (h : ¬part <+: cs) :
    (accepts part).run cs = .ok (false, cs) := by
  rw [accepts, run_bind]
  change Reader.run (if part.isPrefixOf cs then _ else _) _ = _
  rw [if_neg (by simpa using h)]
  rfl

lemma isSpace_eq_false_of_isBareKeyChar (h : isBareKeyChar c) : isSpace c = false := by
  by_contra hspace
  rw [Bool.not_eq_false, isSpace, Bool.or_eq_true, beq_iff_eq, beq_iff_eq] at hspace
  rcases hspace with rfl | rfl <;> cases h

lemma run_keyParts_of_ne (hc : c ≠ '.') :
    Reader.run keyParts (c :: rest) = .ok ([], c :: rest) := by
  change (keyParts (c :: rest)).map _ = _
  rw [keyParts, if_neg hc]
  rfl

lemma run_keyParts_point (cs : List Char) :
    Reader.run keyParts ('.' :: cs) =
      (Reader.run (do spaces; let part ← keyPart; spaces; return part) cs).bind fun r =>
        (Reader.run keyParts r.2).map fun s => (r.1 :: s.1, s.2) := by
  change (keyParts ('.' :: cs)).map _ = _
  rw [keyParts, if_pos rfl]
  rw [run]
  cases (do spaces; let part ← keyPart; spaces; return part : Reader String) cs with
  | error fault => rfl
  | ok r =>
    change ((keyParts r.rest).map _).map _ = ((keyParts r.rest).map _).map _
    cases keyParts r.rest <;> rfl

/-- A bare word with a character after it that is neither of the word nor a blank. -/
lemma run_spacedKeyPart (hword : IsBareWord word) (hc : isBareKeyChar c = false)
    (hspace : isSpace c = false) :
    Reader.run (do spaces; let part ← keyPart; spaces; return part) (word ++ c :: rest) =
      .ok (String.ofList word, c :: rest) := by
  obtain ⟨w, more, rfl⟩ := List.exists_cons_of_ne_nil hword.ne_nil
  have hw := isSpace_eq_false_of_isBareKeyChar (hword.bare w List.mem_cons_self)
  rw [run_bind, run_spaces, List.cons_append, List.dropWhile_cons_of_neg (by simp [hw]),
    ← List.cons_append]
  change Reader.run (keyPart >>= _) _ = _
  rw [run_bind, run_keyPart hword hc]
  change Reader.run (spaces >>= _) _ = _
  rw [run_bind, run_spaces, List.dropWhile_cons_of_neg (by simp [hspace])]
  rfl

lemma exists_cons_of_words (words : List (List Char)) (rest : List Char)
    (hc : isBareKeyChar c = false) (hspace : isSpace c = false) :
    ∃ d more, words.flatMap ('.' :: ·) ++ c :: rest = d :: more ∧ isBareKeyChar d = false ∧
      isSpace d = false := by
  cases words with
  | nil => exact ⟨c, rest, rfl, hc, hspace⟩
  | cons next words => exact ⟨'.', _, rfl, rfl, rfl⟩

/-- The parts of a key that are bare words. -/
lemma run_keyParts_words {words : List (List Char)}
    (hwords : ∀ word ∈ words, IsBareWord word) (hpoint : c ≠ '.')
    (hc : isBareKeyChar c = false) (hspace : isSpace c = false) :
    Reader.run keyParts (words.flatMap ('.' :: ·) ++ c :: rest) =
      .ok (words.map String.ofList, c :: rest) := by
  induction words with
  | nil => exact run_keyParts_of_ne hpoint
  | cons word words ih =>
    obtain ⟨hword, hwords⟩ := List.forall_mem_cons.mp hwords
    obtain ⟨d, more, hmore, hd, hdspace⟩ := exists_cons_of_words words rest hc hspace
    rw [List.flatMap_cons, List.cons_append, List.cons_append, List.append_assoc,
      run_keyParts_point, hmore, run_spacedKeyPart hword hd hdspace, ← hmore]
    change (Reader.run keyParts _).map _ = _
    rw [ih hwords]
    rfl

lemma run_key_words {words : List (List Char)} (hword : IsBareWord word)
    (hwords : ∀ word ∈ words, IsBareWord word) (hpoint : c ≠ '.')
    (hc : isBareKeyChar c = false) (hspace : isSpace c = false) :
    key.run (word ++ (words.flatMap ('.' :: ·) ++ c :: rest)) =
      .ok ((word :: words).map String.ofList, c :: rest) := by
  obtain ⟨d, more, hmore, hd, hdspace⟩ := exists_cons_of_words words rest hc hspace
  rw [key, run_bind, hmore, run_keyPart hword hd]
  change Reader.run (spaces >>= _) _ = _
  rw [run_bind, run_spaces, List.dropWhile_cons_of_neg (by simp [hdspace]), ← hmore]
  refine (run_bind (keyParts : Reader (List String)) _ _).trans ?_
  rw [run_keyParts_words hwords hpoint hc hspace]
  rfl

/-- A header of bare words. -/
lemma run_headerStatement {words : List (List Char)} (hword : IsBareWord word)
    (hwords : ∀ word ∈ words, IsBareWord word) :
    headerStatement.run ('[' :: (word ++ (words.flatMap ('.' :: ·) ++ ']' :: rest))) =
      .ok (.header ((word :: words).map String.ofList), rest) := by
  obtain ⟨w, more, rfl⟩ := List.exists_cons_of_ne_nil hword.ne_nil
  have hw := hword.bare w List.mem_cons_self
  have hsingle : ∀ left, ¬['[', '['] <+: '[' :: w :: left := by
    intro left h
    obtain ⟨rfl, -⟩ := List.cons_prefix_cons.mp (List.cons_prefix_cons.mp h).2
    cases hw
  rw [headerStatement, run_bind, List.cons_append, run_accepts_of_not_prefix (hsingle _)]
  change Reader.run (skip 1 >>= _) _ = _
  rw [run_bind]
  change Reader.run (spaces >>= _) (w :: more ++ _) = _
  rw [run_bind, run_spaces, List.cons_append,
    List.dropWhile_cons_of_neg (by simp [isSpace_eq_false_of_isBareKeyChar hw]),
    ← List.cons_append]
  change Reader.run (key >>= _) _ = _
  rw [run_bind, run_key_words hword hwords (by decide) rfl rfl]
  change Reader.run (expect [']'] >>= _) _ = _
  rw [run_bind]
  rfl

lemma exists_of_run_bind {p : Reader α} {f : α → Reader β} {cs : List Char}
    {result : β × List Char} (h : (p >>= f).run cs = .ok result) :
    ∃ r, p.run cs = .ok r ∧ (f r.1).run r.2 = .ok result := by
  rw [run_bind] at h
  cases hp : p.run cs with
  | error fault =>
    rw [hp] at h
    cases h
  | ok r =>
    rw [hp] at h
    exact ⟨r, rfl, h⟩

/-- The blanks and the comment at the end of a line leave its statement as it is. -/
lemma eq_of_run_lineEnd {statement : Option Statement} {cs : List Char}
    {result : Option Statement × List Char}
    (h : Reader.run (do
      spaces
      if ← sees ['#'] then comment
      return statement) cs = .ok result) : result.1 = statement := by
  obtain ⟨r, -, h⟩ := exists_of_run_bind h
  obtain ⟨⟨hash, left⟩, -, h⟩ := exists_of_run_bind h
  cases hash with
  | false =>
    cases h
    rfl
  | true =>
    obtain ⟨_, -, h⟩ := exists_of_run_bind h
    cases h
    rfl

/-- A line that begins with a header of bare words is that header. -/
lemma eq_header_of_lineStatement (word : List Char) (words : List (List Char)) {cs : List Char}
    (hword : IsBareWord word) (hwords : ∀ word ∈ words, IsBareWord word)
    (hcs : cs.dropWhile isSpace = '[' :: (word ++ (words.flatMap ('.' :: ·) ++ ']' :: rest)))
    {result : Reading Char (Option Statement) cs.length} (h : lineStatement cs = .ok result) :
    result.value = some (.header ((word :: words).map String.ofList)) := by
  have hrun : lineStatement.run cs = .ok (result.value, result.rest) := by
    rw [run, h]
    rfl
  rw [lineStatement, run_bind, run_spaces, hcs] at hrun
  change Reader.run (peek >>= _) _ = _ at hrun
  rw [run_bind, run_peek] at hrun
  change Reader.run ((headerStatement >>= fun header => pure (some header)) >>= _)
    ('[' :: _) = _ at hrun
  rw [run_bind, run_bind, run_headerStatement hword hwords] at hrun
  exact eq_of_run_lineEnd hrun

end Reader

/-- Each line is read from a place of the text. -/
lemma Lines.exists_of_mem {lines : List (List Char × Option Statement)}
    {line : List Char × Option Statement} (h : Lines cs lines) (hline : line ∈ lines) :
    line.1 <:+ cs ∧ ∃ result, lineStatement line.1 = .ok result ∧ result.value = line.2 := by
  induction h with
  | last hread =>
    rw [List.mem_singleton.mp hline]
    exact ⟨List.suffix_rfl, _, hread, rfl⟩
  | cons hread _ ih =>
    rcases List.mem_cons.mp hline with rfl | hline
    · exact ⟨List.suffix_rfl, _, hread, rfl⟩
    · have hrest := Reader.Ensures.lineStatement.rest_suffix List.suffix_rfl hread
      obtain ⟨hsuffix, hstatement⟩ := ih hline
      exact ⟨hsuffix.trans (Reader.Ensures.suffix_of_cons hrest), hstatement⟩

/-- A header names its table. -/
lemma Statement.areNaming_of_mem {current path : List String} {statements : List Statement}
    (h : .header path ∈ statements) : AreNaming current path statements := by
  induction statements generalizing current with
  | nil => cases h
  | cons statement more ih =>
    rcases List.mem_cons.mp h with rfl | h
    · exact .inl List.prefix_rfl
    · exact .inr (ih h)

end FieldComposition.Toml
