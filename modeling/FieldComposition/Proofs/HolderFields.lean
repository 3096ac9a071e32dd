import FieldComposition.Evaluation
import FieldComposition.Proofs.ExpansionErrors
import FieldComposition.Proofs.WellFormedInvocation
import Mathlib.Data.List.Dedup

/-!
# Fields of argument holders

The code of a holder declares a field for every argument, in order, and its method passes every
argument on. Nothing asks for different names. A class of the python dialect stores one field for
every name as it is known inside the class, so it has as many fields as there are arguments, and
passes each of them on once, exactly if these names are pairwise distinct (`expand_holder_fields`).
-/

namespace FieldComposition

namespace Python

/-- The operand that a term starts from. -/
def Term.source : Term → Operand
  | operand o => o
  | clone value => value.source
  | convert value _ _ => value.source
  | apply _ value => value.source

lemma Term.source_ofModifier (m : Modifier) (o : Operand) (target? : Option (String × String)) :
    (ofModifier m o target?).source = o := by
  cases m <;> cases target? <;> rfl

/-- Items that are added unless one with the same name is there have names that differ, and every
name is there in the end. -/
lemma nodup_foldl_named {α β : Type} (name : α → String) (make : α → β) (named : β → String)
    (hmake : ∀ a, named (make a) = name a) (as : List α) (bs : List β)
    (h : (bs.map named).Nodup) :
    ((as.foldl (fun bs a => if bs.any (named · == name a) then bs else bs ++ [make a]) bs).map
      named).Nodup ∧
    ∀ n, n ∈ (as.foldl (fun bs a => if bs.any (named · == name a) then bs else bs ++ [make a])
      bs).map named ↔ n ∈ bs.map named ∨ n ∈ as.map name := by
  induction as generalizing bs with
  | nil => simpa using h
  | cons a as ih =>
    have hany : (bs.any (named · == name a)) = true ↔ name a ∈ bs.map named := by
      simp [List.any_eq_true, List.mem_map]
    rw [List.foldl_cons, List.map_cons]
    split
    · rename_i hmem
      rw [hany] at hmem
      refine ⟨(ih _ h).1, fun n => ?_⟩
      rw [(ih _ h).2, List.mem_cons]
      constructor
      · exact Or.imp_right .inr
      · rintro (hn | rfl | hn)
        · exact .inl hn
        · exact .inl hmem
        · exact .inr hn
    · rename_i hmem
      rw [hany] at hmem
      have hsnoc : ((bs ++ [make a]).map named).Nodup := by
        rw [List.map_append, List.map_singleton, hmake]
        exact h.append (List.nodup_singleton _) (by simpa using hmem)
      refine ⟨(ih _ hsnoc).1, fun n => ?_⟩
      rw [(ih _ hsnoc).2, List.map_append, List.map_singleton, hmake, List.mem_append,
        List.mem_singleton, List.mem_cons, or_assoc]

namespace ClassDef

/-- The name under which a class stores what is called `name` in it. -/
def storedName (c : ClassDef) (name : String) : String :=
  Name.inClass (Text.normalize c.name) (Text.normalize name)

/-- Whether an operand in a method of a class is the value that is stored under `name`. -/
def takes (c : ClassDef) (name : String) : Operand → Bool
  | .field owner field => owner == "self" && c.storedName field == name
  | .host _ => false

/-- The fields that a class stores have different names, those that its declarations are stored
under. -/
lemma fieldDecls_spec (c : ClassDef) : (c.fieldDecls.map FieldDecl.name).Nodup ∧
    ∀ name, name ∈ c.fieldDecls.map FieldDecl.name ↔
      name ∈ c.fields.map fun f => c.storedName f.name := by
  have hspec := nodup_foldl_named (fun f : Field => c.storedName f.name)
    (fun f => { name := c.storedName f.name, hint := .generic,
                default := f.default.map fun e => .value (.symbol e.text) })
    FieldDecl.name (fun _ => rfl) c.fields [] List.nodup_nil
  refine ⟨hspec.1, fun name => (hspec.2 name).trans ?_⟩
  simp

/-- A class has a field for each of its declarations exactly if they are stored under different
names. -/
lemma length_fieldDecls_iff (c : ClassDef) : c.fieldDecls.length = c.fields.length ↔
    (c.fields.map fun f => c.storedName f.name).Nodup := by
  obtain ⟨hnodup, hmem⟩ := c.fieldDecls_spec
  have hperm : (c.fieldDecls.map FieldDecl.name).Perm
      (c.fields.map fun f => c.storedName f.name).dedup := by
    rw [List.perm_ext_iff_of_nodup hnodup (List.nodup_dedup _)]
    simpa using hmem
  have hlength := hperm.length_eq
  rw [List.length_map] at hlength
  rw [hlength, ← List.length_map (fun f : Field => c.storedName f.name)]
  constructor
  · intro h
    rw [← List.dedup_eq_self]
    exact (List.dedup_sublist _).eq_of_length h
  · intro h
    rw [h.dedup]

end ClassDef

/-- The class of a holder declares a field for every argument and its method passes on what is
stored under every argument's name, both in order and behind the receiver. -/
structure IsHolderClass (h : Holder) (c : ClassDef) (m : Method) : Prop where
  name_eq : c.name = h.name
  map_name_fields : c.fields.map Field.name = h.args.map Argument.name
  method_eq : c.method = some m
  map_source_args : m.args.map Term.source =
    h.receiver.toList.map (fun _ => .host "receiver") ++
      h.args.map fun a => .field "self" a.name

namespace IsHolderClass

variable {h : Holder} {c : ClassDef} {m : Method}

lemma map_storedName (hclass : IsHolderClass h c m) :
    (c.fields.map fun f => c.storedName f.name) = h.args.map fun a => c.storedName a.name := by
  have hnames := congrArg (List.map c.storedName) hclass.map_name_fields
  rwa [List.map_map, List.map_map] at hnames

/-- What is stored under a name is passed on for every argument with the name. -/
lemma countP_takes (hclass : IsHolderClass h c m) (name : String) :
    (m.args.map Term.source).countP (c.takes name) =
      (h.args.map fun a => c.storedName a.name).count name := by
  have hreceiver : (h.receiver.toList.map fun _ => Operand.host "receiver").countP
      (c.takes name) = 0 := by
    cases h.receiver <;> simp [ClassDef.takes]
  rw [hclass.map_source_args, List.countP_append, hreceiver, Nat.zero_add, List.count_eq_countP,
    List.countP_map, List.countP_map]
  simp [ClassDef.takes, Function.comp_def]

/-- Every stored field is passed on once exactly if the arguments are stored under different
names. -/
lemma forall_countP_takes_iff (hclass : IsHolderClass h c m) :
    (∀ d ∈ c.fieldDecls, (m.args.map Term.source).countP (c.takes d.name) = 1) ↔
      (h.args.map fun a => c.storedName a.name).Nodup := by
  rw [List.nodup_iff_count_eq_one]
  simp only [hclass.countP_takes]
  have hmem := c.fieldDecls_spec.2
  rw [hclass.map_storedName] at hmem
  constructor
  · intro hone name hname
    obtain ⟨d, hd, rfl⟩ := List.mem_map.mp ((hmem name).mpr hname)
    exact hone d hd
  · intro hone d hd
    exact hone _ ((hmem _).mp (List.mem_map_of_mem hd))

/-- The class has one field for every argument exactly if the arguments are stored under different
names. -/
lemma length_fieldDecls_iff (hclass : IsHolderClass h c m) :
    c.fieldDecls.length = h.args.length ↔ (h.args.map fun a => c.storedName a.name).Nodup := by
  have hlength := congrArg List.length hclass.map_name_fields
  rw [List.length_map, List.length_map] at hlength
  rw [← hlength, c.length_fieldDecls_iff, hclass.map_storedName]

end IsHolderClass

lemma isHolderClass_holderClass (h : Holder) (params : List String) :
    ∃ m, IsHolderClass h (holderClass h params) m := by
  refine ⟨_, rfl, ?_, rfl, ?_⟩
  · simp [holderClass]
  · cases h.receiver <;> simp [forwarded, Term.source_ofModifier, Term.source]

/-- Statements that define a class, behind the type variables that it uses. -/
inductive DefinesClass (runtimeName : String) (c : ClassDef) : List Code → Prop
  | mk (blocks : List (List Line))
      (hblocks : ∀ line ∈ blocks.flatten, ∃ name, line = .typeVariable name) :
      DefinesClass runtimeName c <| (blocks ++ [[Line.classDef c]]).map fun block : List Line =>
        Code.stacked (block.flatMap (·.code runtimeName))

lemma exists_definesClass (runtimeName : String) (h : Holder) :
    ∃ c m, DefinesClass runtimeName c ((holder h).draft runtimeName).statements ∧
      IsHolderClass h c m := by
  obtain ⟨m, hm⟩ := isHolderClass_holderClass h (typeParameterNames h.generics ++
    (h.args.filter (·.type.isNone)).map (argumentType h))
  refine ⟨_, m, .mk _ fun line hline => ?_, hm⟩
  split at hline
  · cases hline
  · rw [List.flatten_singleton] at hline
    obtain ⟨name, -, rfl⟩ := List.mem_map.mp hline
    exact ⟨name, rfl⟩

end Python

namespace Rust

/-- The line that declares the field of an argument. -/
def declaration (a : Argument) : Code :=
  .text (a.name ++ ": " ++ a.type.getD a.name ++ ",")

/-- An argument as the method of a holder passes it on. -/
def forwarded (a : Argument) : Code :=
  (Term.ofModifier a.modifier (.field "self" a.name)).code

/-- Statements that declare the field of every argument in a struct, and end with a method that
passes every argument on behind the receiver. -/
inductive HolderCode (h : Holder) : List Code → Prop
  | mk (head default : List Code) (implementation signature : String) :
      HolderCode h <|
        [Code.stacked (head ++
          (if h.args.isEmpty then [] else [Code.indentedLines (h.args.map declaration)]) ++
          [.text "\x7d"])] ++ default ++
        [Code.braced (.text implementation) [Code.braced (.text signature)
          [.text (h.path ++ "(") ++
            Code.joined ", " (h.receiver.toList.map (fun _ => .text "__self") ++
              h.args.map forwarded) ++ .text ")"]]]

lemma holderCode_holder (h : Holder) : HolderCode h (holder h).statements := by
  have hfields : (h.args.map fun a => Code.text (a.name ++ ": " ++ a.type.getD a.name ++ ",")) =
      h.args.map declaration := rfl
  have hreceiver : (h.receiver.map fun _ => Code.text "__self").toList =
      h.receiver.toList.map fun _ => .text "__self" := by
    cases h.receiver <;> rfl
  simp only [holder, holderStruct, holderCall, hfields, hreceiver, List.isEmpty_map]
  exact .mk _ _ _ _

end Rust

/-- The code of a holder declares a field for every argument and passes every argument on, in
order and behind the receiver. In the python dialect these are one stored field and one use of it
for every argument exactly if no two arguments are stored under the same name. -/
theorem expand_holder_fields {dialect? : Option Dialect} {settings : Settings}
    {file text : String} {expansion : Expansion}
    (h : expand EntryPoint.fnStruct.name text (dialect?.map Dialect.name) settings file =
      .ok expansion) :
    ∃ holder, Invocation.ofText .fnStruct (.dialect (dialect?.getD settings.dialect)) text =
        .ok (.holder holder) ∧
      match dialect?.getD settings.dialect with
      | .python => ∃ statements c m,
          expansion.statements = statements.map (·.render settings.tab) ∧
          Python.DefinesClass settings.runtimeAlias c statements ∧
          Python.IsHolderClass holder c m ∧
          (c.fieldDecls.length = holder.args.length ↔
            (holder.args.map fun a => c.storedName a.name).Nodup) ∧
          ((∀ d ∈ c.fieldDecls, (m.args.map Python.Term.source).countP (c.takes d.name) = 1) ↔
            (holder.args.map fun a => c.storedName a.name).Nodup)
      | .rust => ∃ statements, expansion.statements = statements.map (·.render settings.tab) ∧
          Rust.HolderCode holder statements := by
  obtain ⟨i, t, hread, ht, rfl⟩ := expand_eq_ok_iff.mp h
  have hwell := Invocation.isWellFormed_of_ofText hread
  cases i with
  | holder holder =>
    refine ⟨holder, hread, ?_⟩
    cases hdialect : dialect?.getD settings.dialect with
    | python =>
      obtain ⟨c, m, hdefines, hclass⟩ :=
        Python.exists_definesClass settings.runtimeAlias holder
      exact ⟨_, c, m, Draft.statements_layout .., hdefines, hclass,
        hclass.length_fieldDecls_iff, hclass.forall_countP_takes_iff⟩
    | rust => exact ⟨_, Draft.statements_layout .., Rust.holderCode_holder holder⟩
  | _ => exact hwell.elim

/-- The fields of a holder whose arguments have different names. -/
theorem expand_holder_fields_distinct :
    let text := "H for fn f(a: int, b)"
    ∃ expansion holder statements c m,
      expand "fn_struct" text none {} "<input>" = .ok expansion ∧
      Invocation.ofText .fnStruct (.dialect .python) text = .ok (.holder holder) ∧
      expansion.statements = statements.map (·.render ({} : Settings).tab) ∧
      Python.DefinesClass "_fs" c statements ∧ Python.IsHolderClass holder c m ∧
      c.fieldDecls.length = 2 := by
  intro text
  let h : Holder :=
    { name := "H", path := "f",
      args := [{ name := "a", type := some "int", position := ⟨1, 12⟩ },
        { name := "b", position := ⟨1, 20⟩ }] }
  have hread : Invocation.ofText .fnStruct (.dialect .python) text = .ok (.holder h) := by
    decide +kernel
  have hexpand : expand EntryPoint.fnStruct.name text (Option.map Dialect.name none) {}
      "<input>" = .ok _ :=
    expand_eq_ok_iff.mpr ⟨_, _, hread, rfl, rfl⟩
  obtain ⟨holder, hread', statements, c, m, hstatements, hdefines, hclass, hlength, -⟩ :=
    expand_holder_fields hexpand
  obtain rfl := Invocation.holder.inj (Except.ok.inj (hread'.symm.trans hread))
  refine ⟨_, h, statements, c, m, hexpand, hread, hstatements, hdefines, hclass, ?_⟩
  refine hlength.mpr ?_
  simp only [Python.ClassDef.storedName, hclass.name_eq]
  decide +kernel

/-- Two arguments with one name leave one field, which is passed on twice. -/
theorem not_distinct_arguments :
    let text := "H for fn f(a: int, a: int)"
    ∃ h params m,
      (∀ d : Dialect, Invocation.ofText .fnStruct (.dialect d) text = .ok (.holder h)) ∧
      h.args.map Argument.name = ["a", "a"] ∧ ¬(h.args.map Argument.name).Nodup ∧
      (Python.holder h).blocks.flatten = [.classDef (Python.holderClass h params)] ∧
      (Python.holderClass h params).method = some m ∧
      (Python.holderClass h params).fieldDecls.map FieldDecl.name = ["a"] ∧
      m.args.map Python.Term.source = [.field "self" "a", .field "self" "a"] := by
  intro text
  let h : Holder :=
    { name := "H", path := "f",
      args := [{ name := "a", type := some "int", position := ⟨1, 12⟩ },
        { name := "a", type := some "int", position := ⟨1, 20⟩ }] }
  have hread : ∀ d : Dialect, Invocation.ofText .fnStruct (.dialect d) text = .ok (.holder h) := by
    intro d
    cases d <;> decide +kernel
  exact ⟨h, [], _, hread, rfl, by decide, rfl, rfl, by decide +kernel, rfl⟩

end FieldComposition
