import FieldComposition.Proofs.HolderReceiver
import FieldComposition.Proofs.RelocatedRun

/-!
# Arguments of a holder

A holder is read in three parts: what stands in front of its arguments, the arguments, and what
stands behind them (`Parser.holder_eq`). Each argument of the result was read at one place of the
text, behind other items (`Parser.Items`). What is read up to the name of an argument
(`Parser.ArgumentStart`) is read alike on tokens that stand for the tokens there, and so is what
stands behind its default; the type and the default are captured between the two
(`Parser.ArgumentPlace`).
-/

namespace FieldComposition

/-- The invocation with another holder in the place of the one that it is. -/
def Invocation.mapHolder (f : Holder → Holder) : Invocation → Invocation
  | holder h => holder (f h)
  | i => i

namespace Parser

/-- What stands in front of the arguments of a holder, with the token that its path starts with and
the parenthesis that opens the arguments. -/
def holderHead : Parser (Holder × Token × Token) := do
  let visibility ← visibility
  let _ ← accept? .wordStruct
  let callByRef ← accepts .amp
  let name ← expect .ident .holderName
  let params ← generics
  let whereClause ← typeAfter? .wordWhere [.wordFor] .whereClause
  let _ ← expect .wordFor .wordFor
  let callGenerics ← generics
  let callWhere ← typeAfter? .wordWhere [.wordFn] .whereClause
  let _ ← expect .wordFn .wordFn
  let pathStart ← current
  let path ← typeText [.openParen] .functionPath
  let openParen ← expect .openParen .openingParen
  let head : Holder :=
    { name := name.value, visibility, callByRef, generics := params, whereClause, callGenerics,
      callWhere, path }
  return (head, pathStart, openParen)

/-- The arguments of a holder. -/
def holderArguments (openParen : Token) :
    Option Modifier × List Argument → Parser (Option Modifier × List Argument) :=
  separated .closeParen (fun _ => false) .argumentSeparator (nextArgument openParen)

/-- What stands behind the arguments of a holder, with the checks of the whole. -/
def holderTail (head : Holder × Token × Token) (state : Option Modifier × List Argument) :
    Parser Invocation := do
  skip 1
  let returnType ← typeAfter? .arrow [.eof] .returnType
  expectEnd
  if state.2.any (·.default.isSome) && !state.2.all (·.default.isSome) then
    fail .partialDefaults head.2.2
  let h : Holder := { head.1 with receiver := state.1, args := state.2, returnType }
  if state.1.isSome && h.receiverType = head.1.path then fail .selfWithoutMethod head.2.1
  return .holder h

lemma lawfulMonad : LawfulMonad Parser := by
  refine .mk' Parser (fun p => ?_) (fun a f => ?_) fun p f g => ?_ <;> funext src tokens
  · change Parser.bind p (Parser.pure ∘ id) src tokens = p src tokens
    unfold Parser.bind
    cases p src tokens <;> rfl
  · change Parser.bind (Parser.pure a) f src tokens = f a src tokens
    unfold Parser.bind Parser.pure
    dsimp only
    cases f a src tokens <;> rfl
  · change Parser.bind (Parser.bind p f) g src tokens =
      Parser.bind p (fun a => Parser.bind (f a) g) src tokens
    unfold Parser.bind
    cases p src tokens with
    | error e => rfl
    | ok r =>
      dsimp only
      cases f r.value src r.rest with
      | error e => rfl
      | ok s =>
        dsimp only [Reading.weaken]
        cases g s.value src s.rest <;> rfl

lemma holder_eq : holder = holderHead >>= fun head =>
    holderArguments head.2.2 (none, []) >>= holderTail head := by
  have := lawfulMonad
  unfold holder holderHead holderTail holderArguments
  simp only [bind_assoc, pure_bind]

/-- What follows an item of a list: the end of the list, or a comma and the other items. -/
def moreItems {σ : Type} (close : TokenKind) (sought : Sought) (item : σ → Parser σ) (s : σ) :
    Parser σ := do
  let t ← current
  if t.kind = close then return s
  else
    let _ ← expect .comma sought
    separated close (fun _ => false) sought item s

/-- Items of a list that are read one after another, each with the comma behind it. -/
inductive Items {σ : Type} (src : Source) (close : TokenKind) (item : σ → Parser σ) :
    σ → List Token → σ → List Token → Prop
  | nil {s : σ} {ts : List Token} : Items src close item s ts s ts
  | cons {s s' s'' : σ} {v : Token} {ts more out : List Token}
      (hstart : (ts.headD src.eof).kind ≠ close)
      (hitem : (item s).run src ts = .ok (s', v :: more)) (hclose : v.kind ≠ close)
      (hcomma : v.kind = .comma) (hrest : Items src close item s' more s'' out) :
      Items src close item s ts s'' out

section

variable {σ τ : Type} {src : Source} {close : TokenKind} {sought : Sought} {item : σ → Parser σ}
  {s s' s₁ : σ} {ts ts₁ out : List Token}

lemma run_separated_eq_items (heof : src.eof.kind = .eof)
    (hstart : (ts.headD src.eof).kind ≠ close) :
    (separated close (fun _ => false) sought item s).run src ts =
      (item s >>= moreItems close sought item).run src ts := by
  rw [run_separated_eq_bind heof, run_bind, run_current]
  dsimp only
  rw [if_neg (by simpa using hstart)]
  rfl

/-- Items that have been read may be left out. -/
lemma Items.run_eq (h : Items src close item s ts s₁ ts₁) :
    (separated close (fun _ => false) sought item s).run src ts =
      (separated close (fun _ => false) sought item s₁).run src ts₁ := by
  induction h with
  | nil => rfl
  | cons hstart hitem hclose hcomma _ ih =>
    rw [run_separated, if_neg (by simpa using hstart), hitem]
    dsimp only
    rw [List.headD_cons, if_neg hclose, if_pos hcomma, ih]

lemma Items.length_le (h : Items src close item s ts s₁ ts₁) : ts₁.length ≤ ts.length := by
  induction h with
  | nil => exact le_rfl
  | cons _ hitem _ _ _ ih =>
    have hle := length_le_of_run hitem
    rw [List.length_cons] at hle
    omega

/-- Items in a region stand for items of the other text. -/
lemma Items.relocate {C : Relocation} {f : σ → τ} {item' : τ → Parser τ}
    (hitem : ∀ s, Relocates C (item s) (item' (f s)) f fun _ => True)
    (h : Items C.left close item s ts s₁ ts₁) {front : List Token} (hts : ts = front ++ C.tail)
    (hfront : ∀ t ∈ front, C.region t) (hstays : C.Stays ts₁) :
    ∃ front', ts₁ = front' ++ C.tail ∧ (∀ t ∈ front', C.region t) ∧
      Items C.right close item' (f s) (front.map C.move ++ C.tail') (f s₁)
        (front'.map C.move ++ C.tail') := by
  induction h generalizing front with
  | nil => exact ⟨front, hts, hfront, .nil⟩
  | @cons s s' s'' v ts more out hstart hread hclose hcomma hrest ih =>
    subst hts
    have hmid : C.Stays (v :: more) :=
      hstays.of_le (hrest.length_le.trans (Nat.le_succ more.length))
    obtain ⟨-, rest, hregion, hmore, hread'⟩ := hitem s front s' _ hfront hread hmid
    obtain ⟨-, hhead⟩ := Relocation.headD_eq hfront (hmid.of_le (length_le_of_run hread))
    cases rest with
    | nil =>
      rw [hmore] at hmid
      have htail := hmid.ne_nil.resolve_right (absurd rfl)
      rw [htail] at hmore
      cases hmore
    | cons w rest =>
      obtain ⟨rfl, rfl⟩ := List.cons.inj hmore
      obtain ⟨front', rfl, hfront', hitems⟩ := ih rfl
        (fun t ht => hregion t (List.mem_cons_of_mem v ht)) hstays
      refine ⟨front', rfl, hfront', .cons ?_ hread' ?_ ?_ hitems⟩
      · rwa [hhead, C.kind_eq]
      · rwa [C.kind_eq]
      · rwa [C.kind_eq]

end

/-- The default of an argument, or nothing. -/
def argumentDefault (name : String) : Parser (Option Expression) := do
  if ← accepts .assign then
    some <$> capture { stops := [.comma, .closeParen], sought := .argumentDefault name }
  else pure none

section

variable {src : Source} {ts out : List Token} {a : Argument}

lemma argumentDefault_bind {β : Type} (name : String) (k : Option Expression → Parser β) :
    argumentDefault name >>= k = accepts .assign >>= fun hasDefault =>
      if hasDefault then
        (some <$> capture { stops := [.comma, .closeParen], sought := .argumentDefault name }) >>= k
      else pure none >>= k := by
  have := lawfulMonad
  rw [argumentDefault, bind_assoc]
  refine congrArg (accepts .assign >>= ·) (funext fun hasDefault => ?_)
  cases hasDefault <;> rfl

/-- What is read of an argument behind its name. -/
def argumentBehind (m : Modifier) (name : String) (position : Position) :
    Parser (Argument ⊕ Modifier) := do
  let type ← typeAfter? .colon [.comma, .closeParen, .assign] (.argumentType name)
  let default ← argumentDefault name
  return .inl { name, modifier := m, type, default, position }

lemma run_argument_eq {m : Modifier} {name : Token} {ts₁ ts₂ : List Token}
    (hmodifier : modifier.run src ts = .ok (m, ts₁))
    (hname : (nameAfter m).run src ts₁ = .ok (name, ts₂)) (hself : name.value ≠ "self") :
    argument.run src ts =
      (argumentBehind m name.value (ts.headD src.eof).position).run src ts₂ := by
  rw [argument, run_bind, run_current]
  dsimp only
  rw [run_bind, hmodifier]
  dsimp only
  rw [run_bind, hname]
  dsimp only
  rw [if_neg hself, argumentBehind]
  simp only [argumentDefault_bind]

/-- What is read of an argument: its modifier, its name, its type and its default. -/
lemma run_argument_iff : argument.run src ts = .ok (.inl a, out) ↔
    ∃ name ts₁ ts₂ ts₃, modifier.run src ts = .ok (a.modifier, ts₁) ∧
      (nameAfter a.modifier).run src ts₁ = .ok (name, ts₂) ∧ name.value ≠ "self" ∧
      (typeAfter? .colon [.comma, .closeParen, .assign] (.argumentType name.value)).run src ts₂ =
        .ok (a.type, ts₃) ∧
      (argumentDefault name.value).run src ts₃ = .ok (a.default, out) ∧
      a.name = name.value ∧ a.position = (ts.headD src.eof).position := by
  constructor
  · intro h
    have hread := h
    obtain ⟨first, ts', hfirst, h⟩ := exists_of_run_bind h
    obtain ⟨rfl, rfl⟩ := Prod.mk.inj (Except.ok.inj hfirst)
    obtain ⟨m, ts₁, hmodifier, h⟩ := exists_of_run_bind h
    obtain ⟨name, ts₂, hname, h⟩ := exists_of_run_bind h
    split at h
    · split at h
      · cases h
      · cases h
    rename_i hself
    rw [run_argument_eq hmodifier hname hself] at hread
    obtain ⟨type, ts₃, htype, hread⟩ := exists_of_run_bind hread
    obtain ⟨default, ts₄, hdefault, hread⟩ := exists_of_run_bind hread
    obtain ⟨ha, rfl⟩ := Prod.mk.inj (Except.ok.inj hread)
    obtain rfl := Sum.inl.inj ha
    exact ⟨name, ts₁, ts₂, ts₃, hmodifier, hname, hself, htype, hdefault, rfl, rfl⟩
  · rintro ⟨name, ts₁, ts₂, ts₃, hmodifier, hname, hself, htype, hdefault, haname, hposition⟩
    rw [run_argument_eq hmodifier hname hself, argumentBehind, run_bind, htype]
    dsimp only
    rw [run_bind, hdefault, ← haname, ← hposition]
    rfl

end

section

variable {src : Source} {openParen : Token} {s s' : Option Modifier × List Argument}
  {ts out : List Token} {a : Argument}

/-- What is read next is one more argument, or the receiver in front of all arguments. -/
lemma cases_of_run_nextArgument (h : (nextArgument openParen s).run src ts = .ok (s', out)) :
    (ts.headD src.eof).kind ≠ .eof ∧
      ((∃ a, argument.run src ts = .ok (.inl a, out) ∧ s' = (s.1, s.2 ++ [a])) ∨
        ∃ m, argument.run src ts = .ok (.inr m, out) ∧ s = (none, []) ∧ s' = (some m, [])) := by
  rw [nextArgument, run_bind, run_current] at h
  dsimp only at h
  split at h
  · cases h
  rename_i heof
  obtain ⟨read, mid, hread, h⟩ := exists_of_run_bind h
  cases read with
  | inl a =>
    obtain ⟨rfl, rfl⟩ := Prod.mk.inj (Except.ok.inj h)
    exact ⟨heof, .inl ⟨a, hread, rfl⟩⟩
  | inr m =>
    obtain ⟨receiver, args⟩ := s
    rcases receiver with _ | receiver <;> rcases args with _ | ⟨a, args⟩
    · obtain ⟨rfl, rfl⟩ := Prod.mk.inj (Except.ok.inj h)
      exact ⟨heof, .inr ⟨m, hread, rfl, rfl⟩⟩
    all_goals cases h

lemma run_nextArgument (heof : (ts.headD src.eof).kind ≠ .eof)
    (h : argument.run src ts = .ok (.inl a, out)) :
    (nextArgument openParen s).run src ts = .ok ((s.1, s.2 ++ [a]), out) := by
  rw [nextArgument, run_bind, run_current]
  dsimp only
  rw [if_neg heof, run_bind, h]
  rfl

/-- Reading on keeps the arguments that have been read. -/
lemma prefix_of_run_nextArgument (h : (nextArgument openParen s).run src ts = .ok (s', out)) :
    s.2 <+: s'.2 := by
  obtain ⟨-, ⟨a, -, rfl⟩ | ⟨m, -, rfl, rfl⟩⟩ := cases_of_run_nextArgument h
  · exact List.prefix_append ..
  · exact List.prefix_rfl

end

/-- An argument of the result was among those read before, or it was read at one place. -/
lemma exists_items_of_mem {src : Source} (heof : src.eof.kind = .eof) {openParen : Token}
    {s s' : Option Modifier × List Argument} {ts out : List Token} {a : Argument}
    (h : (holderArguments openParen s).run src ts = .ok (s', out)) (ha : a ∈ s'.2) :
    a ∈ s.2 ∨ ∃ s₁ ts₁ rest,
      Items src .closeParen (nextArgument openParen) s ts s₁ ts₁ ∧
      (ts₁.headD src.eof).kind ≠ .closeParen ∧
      (nextArgument openParen s₁).run src ts₁ = .ok ((s₁.1, s₁.2 ++ [a]), rest) ∧
      argument.run src ts₁ = .ok (.inl a, rest) ∧
      (moreItems .closeParen .argumentSeparator (nextArgument openParen) (s₁.1, s₁.2 ++ [a])).run
        src rest = .ok (s', out) := by
  induction hn : ts.length using Nat.strong_induction_on generalizing s ts with
  | _ n ih =>
    by_cases hstart : (ts.headD src.eof).kind = .closeParen
    · rw [holderArguments, run_separated, if_pos (by simpa using hstart)] at h
      obtain ⟨rfl, -⟩ := Prod.mk.inj (Except.ok.inj h)
      exact .inl ha
    rw [holderArguments, run_separated_eq_items heof hstart] at h
    obtain ⟨s₁, mid, hitem, hmore⟩ := exists_of_run_bind h
    -- The argument was read before this item, it is this item, or it is read behind it.
    by_cases hread : a ∈ s₁.2
    · obtain ⟨-, ⟨b, hargument, rfl⟩ | ⟨m, -, rfl, rfl⟩⟩ := cases_of_run_nextArgument hitem
      · rcases List.mem_append.mp hread with hmem | hmem
        · exact .inl hmem
        · obtain rfl := List.mem_singleton.mp hmem
          exact .inr ⟨s, ts, mid, .nil, hstart, hitem, hargument, hmore⟩
      · cases hread
    · rw [moreItems, run_bind, run_current] at hmore
      dsimp only at hmore
      by_cases hclose : (mid.headD src.eof).kind = .closeParen
      · rw [if_pos hclose] at hmore
        obtain ⟨rfl, -⟩ := Prod.mk.inj (Except.ok.inj hmore)
        exact absurd ha hread
      rw [if_neg hclose] at hmore
      obtain ⟨v, more, hcomma, hrest⟩ := exists_of_run_bind hmore
      obtain ⟨rfl, hkind⟩ := eq_cons_of_run_expect (by rw [heof]; decide) hcomma
      have hlength := length_le_of_run hitem
      rw [List.length_cons] at hlength
      rcases ih more.length (by omega) hrest rfl with hmem | ⟨s₂, ts₂, rest, hitems, hbehind⟩
      · exact absurd hmem hread
      · exact .inr ⟨s₂, ts₂, rest, .cons hstart hitem hclose hkind hitems, hbehind⟩

section

variable {src : Source} {body ts ts₁ rest out : List Token} {h : Holder} {a : Argument}
  {head : Holder × Token × Token} {s : Option Modifier × List Argument}

/-- What stands behind an argument: more arguments, and the end of the holder. -/
def behindArgument (head : Holder × Token × Token) (s : Option Modifier × List Argument) :
    Parser Invocation :=
  moreItems .closeParen .argumentSeparator (nextArgument head.2.2) s >>= holderTail head

/-- What stands behind the arguments changes nothing of what stands in front of them. -/
lemma exists_of_run_holderTail (hrun : (holderTail head s).run src ts = .ok (.holder h, out)) :
    ∃ returnType, h = { head.1 with receiver := s.1, args := s.2, returnType } := by
  obtain ⟨-, ts₁, -, hrun⟩ := exists_of_run_bind hrun
  obtain ⟨returnType, ts₂, -, hrun⟩ := exists_of_run_bind hrun
  obtain ⟨-, ts₃, -, hrun⟩ := exists_of_run_bind hrun
  split at hrun
  · cases hrun
  dsimp only at hrun
  split at hrun
  · cases hrun
  · obtain ⟨hholder, -⟩ := Prod.mk.inj (Except.ok.inj hrun)
    exact ⟨returnType, (Invocation.holder.inj hholder).symm⟩

lemma args_of_run_holderTail (hrun : (holderTail head s).run src ts = .ok (.holder h, out)) :
    h.args = s.2 := by
  obtain ⟨returnType, rfl⟩ := exists_of_run_holderTail hrun
  rfl

/-- A holder is read up to one of its arguments, and from there on. -/
lemma run_holder_eq (heof : src.eof.kind = .eof)
    (hhead : holderHead.run src body = .ok (head, ts))
    (hitems : Items src .closeParen (nextArgument head.2.2) (none, []) ts s ts₁)
    (hstart : (ts₁.headD src.eof).kind ≠ .closeParen) (hend : (ts₁.headD src.eof).kind ≠ .eof)
    (hargument : argument.run src ts₁ = .ok (.inl a, rest)) :
    holder.run src body = (behindArgument head (s.1, s.2 ++ [a])).run src rest := by
  rw [holder_eq, run_bind, hhead]
  dsimp only
  rw [run_bind, holderArguments, hitems.run_eq, run_separated_eq_items heof hstart, run_bind,
    run_nextArgument hend hargument, behindArgument, run_bind]

lemma exists_of_run_holder (heof : src.eof.kind = .eof)
    (hrun : holder.run src body = .ok (.holder h, out)) (ha : a ∈ h.args) :
    ∃ head ts s ts₁ rest, holderHead.run src body = .ok (head, ts) ∧
      Items src .closeParen (nextArgument head.2.2) (none, []) ts s ts₁ ∧
      (ts₁.headD src.eof).kind ≠ .closeParen ∧ (ts₁.headD src.eof).kind ≠ .eof ∧
      argument.run src ts₁ = .ok (.inl a, rest) ∧
      (behindArgument head (s.1, s.2 ++ [a])).run src rest = .ok (.holder h, out) := by
  rw [holder_eq] at hrun
  obtain ⟨head, ts, hhead, hrun⟩ := exists_of_run_bind hrun
  obtain ⟨state, behind, harguments, htail⟩ := exists_of_run_bind hrun
  rw [args_of_run_holderTail htail] at ha
  obtain ⟨s, ts₁, rest, hitems, hstart, hnext, hargument, hmore⟩ :=
    (exists_items_of_mem heof harguments ha).resolve_left (by simp)
  refine ⟨head, ts, s, ts₁, rest, hhead, hitems, hstart, (cases_of_run_nextArgument hnext).1,
    hargument, ?_⟩
  rw [behindArgument, run_bind, hmore]
  exact htail

/-- The visibility of a holder is what its first tokens are read as. -/
lemma exists_run_visibility (hrun : holder.run src body = .ok (.holder h, out)) :
    ∃ rest, visibility.run src body = .ok (h.visibility, rest) := by
  rw [holder_eq] at hrun
  obtain ⟨head, ts, hhead, hrun⟩ := exists_of_run_bind hrun
  obtain ⟨state, behind, -, htail⟩ := exists_of_run_bind hrun
  obtain ⟨returnType, rfl⟩ := exists_of_run_holderTail htail
  obtain ⟨visibility, rest, hvisibility, hhead⟩ := exists_of_run_bind hhead
  obtain ⟨-, _, -, hhead⟩ := exists_of_run_bind hhead
  obtain ⟨byRef, _, -, hhead⟩ := exists_of_run_bind hhead
  obtain ⟨name, _, -, hhead⟩ := exists_of_run_bind hhead
  obtain ⟨params, _, -, hhead⟩ := exists_of_run_bind hhead
  obtain ⟨whereClause, _, -, hhead⟩ := exists_of_run_bind hhead
  obtain ⟨-, _, -, hhead⟩ := exists_of_run_bind hhead
  obtain ⟨callGenerics, _, -, hhead⟩ := exists_of_run_bind hhead
  obtain ⟨callWhere, _, -, hhead⟩ := exists_of_run_bind hhead
  obtain ⟨-, _, -, hhead⟩ := exists_of_run_bind hhead
  obtain ⟨pathStart, _, -, hhead⟩ := exists_of_run_bind hhead
  obtain ⟨path, _, -, hhead⟩ := exists_of_run_bind hhead
  obtain ⟨openParen, _, -, hhead⟩ := exists_of_run_bind hhead
  obtain ⟨rfl, -⟩ := eq_of_run_pure hhead
  exact ⟨rest, hvisibility⟩

end

lemma run_typeAfter?_iff {src : Source} {t : Token} {ts out : List Token} {mark : TokenKind}
    {stops : List TokenKind} {sought : Sought} {type : Option String} (hmark : t.kind = mark) :
    (typeAfter? mark stops sought).run src (t :: ts) = .ok (type, out) ↔
      ∃ e, type = some e.text ∧
        (capture { stops, sought, angles := true }).run src ts = .ok (e, out) := by
  rw [typeAfter?, run_bind, run_accepts, List.headD_cons, if_pos hmark]
  dsimp only
  rw [if_pos rfl, List.drop_one, List.tail_cons]
  constructor
  · intro h
    obtain ⟨text, ts', htext, h⟩ := exists_of_run_bind h
    obtain ⟨rfl, rfl⟩ := eq_of_run_pure h
    obtain ⟨e, ts', hcapture, htext⟩ := exists_of_run_bind htext
    obtain ⟨rfl, rfl⟩ := eq_of_run_pure htext
    exact ⟨e, rfl, hcapture⟩
  · rintro ⟨e, rfl, hcapture⟩
    rw [run_bind, typeText, run_bind, hcapture]
    rfl

/-- What the type of an argument may be and where it ends. -/
def argumentTypeRule (name : String) : CaptureRule :=
  { stops := [.comma, .closeParen, .assign], sought := .argumentType name, angles := true }

/-- What the default of an argument may be and where it ends. -/
def argumentDefaultRule (name : String) : CaptureRule :=
  { stops := [.comma, .closeParen], sought := .argumentDefault name }

section

variable {src : Source} {ts out : List Token} {a : Argument} {type : String} {e : Expression}

/-- An argument with a type and a default: the type is what stands between the colon and the `=`. -/
lemma run_argument_iff_of_some (heof : src.eof.kind = .eof) (htype : a.type = some type)
    (hdefault : a.default = some e) : argument.run src ts = .ok (.inl a, out) ↔
      ∃ name ts₁ colon front assign rest, modifier.run src ts = .ok (a.modifier, ts₁) ∧
        (nameAfter a.modifier).run src ts₁ = .ok (name, colon :: (front ++ assign :: rest)) ∧
        name.value ≠ "self" ∧ colon.kind = .colon ∧ (argumentTypeRule name.value).Admits front ∧
        type = Token.textOf src.text front ∧ assign.kind = .assign ∧
        (capture (argumentDefaultRule name.value)).run src rest = .ok (e, out) ∧
        a.name = name.value ∧ a.position = (ts.headD src.eof).position := by
  have hnext {assign : Token} {rest : List Token} {name : String}
      (hequals : assign.kind = .assign) :
      ((assign :: rest).headD src.eof).kind ∈ (argumentTypeRule name).stops := by
    simp [hequals, argumentTypeRule]
  rw [run_argument_iff, htype, hdefault]
  constructor
  · rintro ⟨name, ts₁, ts₂, ts₃, hmodifier, hname, hself, htyped, hdefaulted, hplace⟩
    obtain ⟨hasType, mid, hcolon, hmid⟩ := exists_of_run_bind htyped
    obtain ⟨hasDefault, rest, hassign, hdefaulted⟩ := exists_of_run_bind hdefaulted
    rcases cases_of_run_accepts (by rw [heof]; decide) hassign with
      ⟨assign, rfl, hequals, rfl⟩ | ⟨rfl, -, rfl⟩
    case inr => cases hdefaulted
    rcases cases_of_run_accepts (by rw [heof]; decide) hcolon with
      ⟨colon, rfl, hmark, rfl⟩ | ⟨rfl, -, rfl⟩
    case inr => cases hmid
    rw [if_pos rfl] at hdefaulted
    obtain ⟨e', htype', hcapture⟩ := (run_typeAfter?_iff hmark).mp htyped
    obtain rfl := Option.some.inj htype'
    obtain ⟨e'', ts', hvalue, hdefaulted⟩ := exists_of_run_bind hdefaulted
    obtain ⟨he, rfl⟩ := Prod.mk.inj (Except.ok.inj hdefaulted)
    obtain rfl := Option.some.inj he
    obtain ⟨front, hadmits, rfl, rfl⟩ :=
      (run_capture_iff (by simp [argumentTypeRule]) (hnext hequals)).mp hcapture
    exact ⟨name, ts₁, colon, front, assign, rest, hmodifier, hname, hself, hmark, hadmits, rfl,
      hequals, hvalue, hplace⟩
  · rintro ⟨name, ts₁, colon, front, assign, rest, hmodifier, hname, hself, hmark, hadmits, rfl,
      hequals, hvalue, hplace⟩
    have hcapture : (capture (argumentTypeRule name.value)).run src (front ++ assign :: rest) =
        .ok (.ofTokens src.text front, assign :: rest) :=
      (run_capture_iff (by simp [argumentTypeRule]) (hnext hequals)).mpr ⟨front, hadmits, rfl, rfl⟩
    refine ⟨name, ts₁, _, assign :: rest, hmodifier, hname, hself,
      (run_typeAfter?_iff hmark).mpr ⟨_, rfl, hcapture⟩, ?_, hplace⟩
    rw [argumentDefault, run_bind, run_accepts, List.headD_cons, if_pos hequals]
    dsimp only
    have := lawfulMonad
    rw [if_pos rfl, List.drop_one, List.tail_cons, ← argumentDefaultRule, map_eq_pure_bind,
      run_bind, hvalue]
    rfl

end

/-- What is read of a holder up to the name of one of its arguments. -/
structure ArgumentStart (src : Source) (body : List Token) (m : Modifier) where
  head : Holder × Token × Token
  arguments : List Token
  state : Option Modifier × List Argument
  start : List Token
  named : List Token
  name : Token
  behind : List Token
  run_head : holderHead.run src body = .ok (head, arguments)
  items : Items src .closeParen (nextArgument head.2.2) (none, []) arguments state start
  start_ne_close : (start.headD src.eof).kind ≠ .closeParen
  start_ne_eof : (start.headD src.eof).kind ≠ .eof
  run_modifier : modifier.run src start = .ok (m, named)
  run_name : (nameAfter m).run src named = .ok (name, behind)
  name_ne : name.value ≠ "self"

/-- What is read of a holder up to the end of one of its arguments, which has a type and a
default. -/
structure ArgumentPlace (src : Source) (body : List Token) (a : Argument) extends
    ArgumentStart src body a.modifier where
  colon : Token
  type : List Token
  assign : Token
  default : List Token
  value : Expression
  rest : List Token
  behind_eq : behind = colon :: (type ++ assign :: default)
  colon_kind : colon.kind = .colon
  admits : (argumentTypeRule name.value).Admits type
  type_eq : a.type = some (Token.textOf src.text type)
  assign_kind : assign.kind = .assign
  run_default : (capture (argumentDefaultRule name.value)).run src default = .ok (value, rest)
  default_eq : a.default = some value
  name_eq : a.name = name.value
  position_eq : a.position = (start.headD src.eof).position

section

variable {src : Source} {body out : List Token} {h : Holder} {a : Argument} {m : Modifier}

/-- What starts with a name that is not `self` is an argument. -/
lemma ArgumentStart.exists_argument (p : ArgumentStart src body m) (heof : src.eof.kind = .eof)
    (hrun : holder.run src body = .ok (.holder h, out)) : ∃ a rest,
      argument.run src p.start = .ok (.inl a, rest) ∧
        (behindArgument p.head (p.state.1, p.state.2 ++ [a])).run src rest =
          .ok (.holder h, out) := by
  have := lawfulMonad
  rw [holder_eq, run_bind, p.run_head] at hrun
  dsimp only at hrun
  rw [run_bind, holderArguments, p.items.run_eq, run_separated_eq_items heof p.start_ne_close,
    ← run_bind, bind_assoc] at hrun
  obtain ⟨state, rest, hnext, hrun⟩ := exists_of_run_bind hrun
  obtain ⟨-, ⟨a, hargument, rfl⟩ | ⟨receiver, hargument, -, -⟩⟩ := cases_of_run_nextArgument hnext
  · exact ⟨a, rest, hargument, hrun⟩
  · rw [run_argument_eq p.run_modifier p.run_name p.name_ne] at hargument
    obtain ⟨type, ts, -, hargument⟩ := exists_of_run_bind hargument
    obtain ⟨default, ts', -, hargument⟩ := exists_of_run_bind hargument
    cases hargument

lemma ArgumentPlace.run_argument (p : ArgumentPlace src body a) (heof : src.eof.kind = .eof) :
    argument.run src p.start = .ok (.inl a, p.rest) := by
  have hname := p.run_name
  rw [p.behind_eq] at hname
  exact (run_argument_iff_of_some heof p.type_eq p.default_eq).mpr
    ⟨p.name, p.named, p.colon, p.type, p.assign, p.default, p.run_modifier, hname, p.name_ne,
      p.colon_kind, p.admits, rfl, p.assign_kind, p.run_default, p.name_eq, p.position_eq⟩

/-- A holder is read up to the end of one of its arguments, and from there on. -/
lemma ArgumentPlace.run_holder (p : ArgumentPlace src body a) (heof : src.eof.kind = .eof) :
    holder.run src body = (behindArgument p.head (p.state.1, p.state.2 ++ [a])).run src p.rest :=
  run_holder_eq heof p.run_head p.items p.start_ne_close p.start_ne_eof (p.run_argument heof)

/-- Each argument of a holder was read at some place. -/
lemma exists_place_of_run_holder (heof : src.eof.kind = .eof)
    (hrun : holder.run src body = .ok (.holder h, out)) (ha : a ∈ h.args) (htype : a.type.isSome)
    (hdefault : a.default.isSome) : ∃ p : ArgumentPlace src body a,
      (behindArgument p.head (p.state.1, p.state.2 ++ [a])).run src p.rest =
        .ok (.holder h, out) := by
  obtain ⟨head, ts, s, ts₁, rest, hhead, hitems, hclose, hend, hargument, hbehind⟩ :=
    exists_of_run_holder heof hrun ha
  obtain ⟨type, htype⟩ := Option.isSome_iff_exists.mp htype
  obtain ⟨value, hdefault⟩ := Option.isSome_iff_exists.mp hdefault
  obtain ⟨name, ts₂, colon, front, assign, default, hmodifier, hname, hself, hcolon, hadmits, rfl,
    hassign, hvalue, hnameEq, hposition⟩ :=
    (run_argument_iff_of_some heof htype hdefault).mp hargument
  exact ⟨⟨⟨head, ts, s, ts₁, ts₂, name, _, hhead, hitems, hclose, hend, hmodifier, hname, hself⟩,
    colon, front, assign, default, value, rest, rfl, hcolon, hadmits, htype, hassign, hvalue,
    hdefault, hnameEq, hposition⟩, hbehind⟩

end

namespace Relocates

variable {C : Relocation}

lemma moreItems {σ τ : Type} {f : σ → τ} {close : TokenKind} {sought : Sought}
    {item : σ → Parser σ} {item' : τ → Parser τ}
    (hitem : ∀ s, Relocates C (item s) (item' (f s)) f fun _ => True) {s : σ} :
    Relocates C (moreItems close sought item s) (moreItems close sought item' (f s)) f
      fun _ => True := by
  refine current.bind fun t _ => ite (by rw [C.kind_eq]) (fun _ => pure rfl trivial) fun _ => ?_
  exact expect.bind fun _ _ => separated (fun s _ => hitem s) trivial

lemma holderHead : Relocates C holderHead holderHead
    (Prod.map id (Prod.map C.move C.move)) fun _ => True := by
  refine visibility.bind fun visibility _ => accept?.bind fun _ _ => accepts.bind fun byRef _ => ?_
  refine expect.bind fun name _ => generics.bind fun params _ => ?_
  refine typeAfter?.bind fun whereClause _ => expect.bind fun _ _ => ?_
  refine generics.bind fun callGenerics _ => typeAfter?.bind fun callWhere _ => ?_
  refine expect.bind fun _ _ => current.bind fun pathStart _ => typeText.bind fun path _ => ?_
  rw [C.value_eq]
  exact expect.bind fun openParen _ => pure rfl trivial

lemma holderTail {h : Holder} {pathStart pathStart' openParen openParen' : Token}
    {state : Option Modifier × List Argument} :
    Relocates C (holderTail (h, pathStart, openParen) state)
      (holderTail (h, pathStart', openParen')
        (state.map id (List.map (Argument.mapPositions C.place))))
      (Invocation.mapHolder (Holder.mapPositions C.place)) fun _ => True := by
  have hany : (state.2.map (Argument.mapPositions C.place)).any (·.default.isSome) =
      state.2.any (·.default.isSome) := by
    simp [Function.comp_def, Argument.mapPositions]
  have hall : (state.2.map (Argument.mapPositions C.place)).all (·.default.isSome) =
      state.2.all (·.default.isSome) := by
    simp [Function.comp_def, Argument.mapPositions]
  refine skip.bind fun _ _ => typeAfter?.bind fun returnType _ => expectEnd.bind fun _ _ => ?_
  refine ite ?_ (fun _ => failAt_bind) fun _ => ite Iff.rfl (fun _ => failAt_bind) fun _ => ?_
  · rw [Prod.map_snd, hany, hall]
  · exact pure rfl trivial

lemma behindArgument {head : Holder × Token × Token} {s : Option Modifier × List Argument}
    {a : Argument} : Relocates C (behindArgument head (s.1, s.2 ++ [a]))
      (behindArgument head (s.1, s.2.map (Argument.mapPositions C.place) ++
        [a.mapPositions C.place]))
      (Invocation.mapHolder (Holder.mapPositions C.place)) fun _ => True := by
  have hargs : (s.1, s.2.map (Argument.mapPositions C.place) ++ [a.mapPositions C.place]) =
      (s.1, s.2 ++ [a]).map id (List.map (Argument.mapPositions C.place)) := by
    simp
  rw [hargs]
  exact (moreItems fun _ => nextArgument).bind fun _ _ => holderTail

end Relocates

/-- What starts in a region is read alike on the other text, up to what stands in the region behind
the name. -/
lemma ArgumentStart.relocate {C : Relocation} {m : Modifier} {body front behind : List Token}
    (p : ArgumentStart C.left body m) (hbody : body = front ++ C.tail)
    (hfront : ∀ t ∈ front, C.region t) (hbehind : p.behind = behind ++ C.tail)
    (hne : behind ≠ []) :
    (∀ t ∈ behind, C.region t) ∧
      ∃ q : ArgumentStart C.right (front.map C.move ++ C.tail') m,
        q.head = p.head.map id (Prod.map C.move C.move) ∧
        q.state = p.state.map id (List.map (Argument.mapPositions C.place)) ∧
        (q.start.headD C.right.eof).position = C.place (p.start.headD C.left.eof).position ∧
        q.name.value = p.name.value ∧ q.behind = behind.map C.move ++ C.tail' := by
  subst hbody
  have hstays : C.Stays p.behind := by
    refine .inr ?_
    rw [hbehind, List.length_append]
    exact Nat.lt_add_of_pos_left (List.length_pos_iff.mpr hne)
  have hnamed := hstays.of_le (length_le_of_run p.run_name)
  have hstart := hnamed.of_le (length_le_of_run p.run_modifier)
  obtain ⟨-, arguments, harguments, heq, hhead⟩ :=
    Relocates.holderHead front p.head _ hfront p.run_head (hstart.of_le p.items.length_le)
  have hitem (s : Option Modifier × List Argument) : Relocates C (nextArgument p.head.2.2 s)
      (nextArgument (C.move p.head.2.2) (s.map id (List.map (Argument.mapPositions C.place))))
      (Prod.map id (List.map (Argument.mapPositions C.place))) fun _ => True :=
    Relocates.nextArgument
  obtain ⟨start, heq', hregion, hitems⟩ := p.items.relocate hitem heq harguments hstart
  rw [heq'] at hstart
  obtain ⟨hfirst, hfirst'⟩ := Relocation.headD_eq hregion hstart
  have hmodifier := p.run_modifier
  rw [heq'] at hmodifier
  obtain ⟨-, named, hnamedRegion, heq'', hmodifier'⟩ :=
    Relocates.modifier start m _ hregion hmodifier hnamed
  have hname := p.run_name
  rw [heq''] at hname
  obtain ⟨-, behind', hbehind', heqBehind, hname'⟩ :=
    Relocates.nameAfter named p.name _ hnamedRegion hname hstays
  obtain rfl : behind = behind' := List.append_cancel_right (hbehind.symm.trans heqBehind)
  refine ⟨hbehind', ⟨_, _, _, _, _, _, _, hhead, hitems, ?_, ?_, hmodifier', hname', ?_⟩, rfl, rfl,
    ?_, C.value_eq p.name, rfl⟩
  · rw [hfirst', C.kind_eq, ← heq']
    exact p.start_ne_close
  · rw [hfirst', C.kind_eq, ← heq']
    exact p.start_ne_eof
  · rw [C.value_eq]
    exact p.name_ne
  · rw [hfirst', C.position_eq _ hfirst, heq']

namespace Leaves

variable {host : Host} {text : String} {tokens : Tokens}

lemma holderHead (htokens : Tokens.ofText host text = .ok tokens) :
    Leaves host text tokens holderHead fun _ => True := by
  refine visibility.bind fun visibility _ => accept?.bind fun _ _ => accepts.bind fun byRef _ => ?_
  refine expect.bind fun name _ => generics.bind fun params _ => ?_
  refine (typeAfter?_any htokens (by decide)).bind fun whereClause _ => expect.bind fun _ _ => ?_
  refine generics.bind fun callGenerics _ => ?_
  refine (typeAfter?_any htokens (by decide)).bind fun callWhere _ => expect.bind fun _ _ => ?_
  refine current.bind fun pathStart _ => ?_
  refine (typeText_isCaptured htokens (by decide)).bind fun path _ => ?_
  exact expect.bind fun openParen _ => pure trivial

/-- Items leave the last of the tokens. -/
lemma suffix_of_items {σ : Type} {close : TokenKind} {item : σ → Parser σ} {s s' : σ}
    {ts ts' : List Token} (hitem : ∀ s, Leaves host text tokens (item s) fun _ => True)
    (h : Items ⟨host, text, tokens.eof⟩ close item s ts s' ts') (hts : ts <:+ tokens.body) :
    ts' <:+ tokens.body := by
  induction h with
  | nil => exact hts
  | cons _ hread _ _ _ ih =>
    exact ih ((List.suffix_cons _ _).trans (hitem _ _ hts _ _ hread).2)

section

variable {m : Modifier} (htokens : Tokens.ofText host text = .ok tokens)

include htokens

/-- The last of the tokens are left at an argument, and behind its name. -/
lemma suffix_of_argumentStart (p : ArgumentStart ⟨host, text, tokens.eof⟩ tokens.body m) :
    p.start <:+ tokens.body ∧ p.behind <:+ tokens.body := by
  have harguments := (holderHead htokens _ (List.suffix_refl _) _ _ p.run_head).2
  have hstart := suffix_of_items (fun _ => nextArgument_any htokens) p.items harguments
  have hnamed := (modifier_any htokens _ hstart _ _ p.run_modifier).2
  exact ⟨hstart, (nameAfter_any _ hnamed _ _ p.run_name).2⟩

lemma nextArgument_keeps {openParen : Token} {s : Option Modifier × List Argument} :
    Leaves host text tokens (nextArgument openParen s) fun s' => s.2 <+: s'.2 :=
  fun _ hts _ _ hrun =>
    ⟨prefix_of_run_nextArgument hrun, (nextArgument_any htokens _ hts _ _ hrun).2⟩

/-- The arguments that have been read are the first ones of the holder. -/
lemma prefix_of_behindArgument (p : ArgumentStart ⟨host, text, tokens.eof⟩ tokens.body m)
    {h : Holder} {a : Argument} {ts out : List Token}
    (hargument : argument.run ⟨host, text, tokens.eof⟩ p.start = .ok (.inl a, ts))
    (hrun : (behindArgument p.head (p.state.1, p.state.2 ++ [a])).run ⟨host, text, tokens.eof⟩ ts =
      .ok (.holder h, out)) : p.state.2 ++ [a] <+: h.args := by
  have hts := (argument_any htokens _ (suffix_of_argumentStart htokens p).1 _ _ hargument).2
  have hmore : Leaves host text tokens (moreItems .closeParen .argumentSeparator
      (nextArgument p.head.2.2) (p.state.1, p.state.2 ++ [a])) fun s =>
        p.state.2 ++ [a] <+: s.2 := by
    refine current.bind fun t _ => ite (fun _ => pure List.prefix_rfl) fun _ => ?_
    refine expect.bind fun _ _ => ?_
    refine separated (P := fun s : Option Modifier × List Argument => p.state.2 ++ [a] <+: s.2)
      (fun s hs => ?_) List.prefix_rfl
    intro ts hts s' out hrun
    obtain ⟨hkept, hout⟩ := nextArgument_keeps htokens ts hts s' out hrun
    exact ⟨hs.trans hkept, hout⟩
  obtain ⟨s, mid, hread, htail⟩ := exists_of_run_bind hrun
  rw [args_of_run_holderTail htail]
  exact (hmore ts hts s mid hread).1

end

end Leaves

end Parser

end FieldComposition
