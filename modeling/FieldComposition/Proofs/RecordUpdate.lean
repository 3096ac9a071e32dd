import FieldComposition.Proofs.FallibleWalk
import FieldComposition.RecordClass.Declaration
import FieldComposition.StandIn
import Mathlib.Data.List.Perm.Subperm

/-!
# Laws of record updates

An update of a record class looks for every field among the given ones, then on the base, then for
its default (`RecordClass.source`). Where the class leaves to its constructor what becomes of the
fields, that is all there is to an update: it is the walk over the fields that takes each of them
from its source (`RecordClass.update_eq`), and the laws of updates are laws of the sources
(`RecordClass.update_spec`). A class that has a hand in its new objects can break each of the laws
(`RecordClass.not_update_spec`).
-/

namespace FieldComposition

namespace Name

lemma nodup_eraseDups (names : List String) : names.eraseDups.Nodup := by
  cases names with
  | nil => exact List.nodup_nil
  | cons name names =>
    rw [List.eraseDups_cons, List.nodup_cons, List.mem_eraseDups]
    exact ⟨by simp, nodup_eraseDups (names.filter fun other => !other == name)⟩
termination_by names.length
decreasing_by exact Nat.lt_succ_of_le (List.length_filter_le _ _)

lemma nodup_of_areDistinct {names : List String} (h : areDistinct names) : names.Nodup := by
  have hlength : names.eraseDups.length = names.length := by simpa [areDistinct] using h
  have hsubset : names.eraseDups ⊆ names := fun name => List.mem_eraseDups.mp
  have hperm := ((nodup_eraseDups names).subperm hsubset).perm_of_length_le
    (Nat.le_of_eq hlength.symm)
  exact hperm.nodup_iff.mp (nodup_eraseDups names)

end Name

namespace Value

variable {name : String} {pairs more : List (String × Value)}

lemma lookup?_append :
    lookup? name (pairs ++ more) = (lookup? name pairs).or (lookup? name more) := by
  rw [lookup?, List.find?_append, Option.map_or, lookup?, lookup?]

lemma lookup?_eq_none_iff : lookup? name pairs = none ↔ pairs.any (·.1 == name) = false := by
  simp [lookup?]

/-- What is collected for some names is found under each of them. -/
lemma lookup?_filterMap {names : List String} (value? : String → Option Value)
    (h : name ∈ names) :
    lookup? name (names.filterMap fun name => (value? name).map fun v => (name, v)) =
      value? name := by
  induction names with
  | nil => exact absurd h (by simp)
  | cons other names ih =>
    rw [List.filterMap_cons]
    by_cases hname : other = name
    · obtain rfl := hname
      cases hvalue : value? other with
      | none =>
        by_cases hmem : other ∈ names
        · exact (ih hmem).trans hvalue
        · rw [lookup?_eq_none_iff]
          simp only [Option.map_none, List.any_eq_false, List.mem_filterMap]
          rintro _ ⟨another, hanother, hpair⟩ heq
          obtain ⟨v, -, rfl⟩ := Option.map_eq_some_iff.mp hpair
          obtain rfl : another = other := by simpa using heq
          exact hmem hanother
      | some v => simp [lookup?]
    · have hrest := ih ((List.mem_cons.mp h).resolve_left (Ne.symm hname))
      cases value? other with
      | none => exact hrest
      | some v => simpa [lookup?, hname] using hrest

lemma lookup?_of_mem {v : Value} (hnodup : (pairs.map (·.1)).Nodup) (h : (name, v) ∈ pairs) :
    lookup? name pairs = some v := by
  induction pairs with
  | nil => exact absurd h (by simp)
  | cons pair pairs ih =>
    rw [List.map_cons, List.nodup_cons] at hnodup
    rcases List.mem_cons.mp h with rfl | hmem
    · simp [lookup?]
    · have hne : pair.1 ≠ name := by
        rintro rfl
        exact hnodup.1 (List.mem_map.mpr ⟨_, hmem, rfl⟩)
      have hrest := ih hnodup.2 hmem
      simpa [lookup?, hne] using hrest

end Value

namespace RecordClass

/-- Whether a name belongs to the language itself: it begins and ends with two underscores. -/
def isSystemName (name : String) : Bool :=
  ['_', '_'].isPrefixOf name.toList && ['_', '_'].isSuffixOf name.toList

/-- Two objects of a class are equal, for what their fields are. A value is equal to itself,
whatever its own comparison says. -/
def AreEqual (c : RecordClass) (r s : List (String × Value)) : Prop :=
  c.comparesFields ∧ List.Forall₂ (fun field other =>
    field.1 = other.1 ∧ (field.2 = other.2 ∨ field.2.equals other.2)) r s

/-- A class of records that can be declared, and that leaves its objects to the constructor and to
the comparison that are made for it: every field is one that the constructor takes, none has a name
of the language, and nothing else has to be given. -/
structure IsPlain (c : RecordClass) : Prop where
  style_eq : c.style = .dataclass
  check_eq : c.check = .ok ()
  isInit : ∀ f ∈ c.storedFields, f.isInit
  ownName : ∀ f ∈ c.storedFields, isSystemName f.name = false
  passedOn_default : ∀ f ∈ c.fields, f.isPassedOn → (c.defaultOf? f).isSome
  default_at : ∀ f ∈ c.fields, ∀ d, c.defaultOf? f = some d → ∀ occasion, ∃ v, d.at occasion = .ok v
  finish_eq : ∀ finish, c.finish = some finish →
    ∀ occasion stored passed, finish occasion stored passed = .ok stored
  comparesFields : c.comparesFields

/-- Keywords that are fields of a class. -/
def AreKeywords (c : RecordClass) (given : List (String × Value)) : Prop :=
  ∀ field ∈ given, field.1 ∈ c.storedFields.map (·.name)

/-- Keywords with other ones that win over them. -/
def override (given other : List (String × Value)) : List (String × Value) :=
  given.map (fun field => (field.1, (Value.lookup? field.1 other).getD field.2)) ++
    other.filter fun field => !given.any (·.1 == field.1)

/-- The value that an update is to take for a field: what is given, else what the base has, else
what the default comes to. -/
inductive Takes (c : RecordClass) (base : String → Except ConstructionFault (Option Value))
    (given : List (String × Value)) (occasion : Nat) (f : FieldDecl) : Value → Prop where
  | given {v : Value} : Value.lookup? f.name given = some v → Takes c base given occasion f v
  | base {v : Value} : Value.lookup? f.name given = none → base f.name = .ok (some v) →
      Takes c base given occasion f v
  | default {d : Default} {v : Value} : Value.lookup? f.name given = none →
      base f.name = .ok none → c.defaultOf? f = some d → d.at occasion = .ok v →
      Takes c base given occasion f v

/-- A field for which an update finds nothing: it is not given, and either it cannot be read from
the base, or the base has nothing there and the field has no default. -/
def Lacks (c : RecordClass) (base : String → Except ConstructionFault (Option Value))
    (given : List (String × Value)) (f : FieldDecl) : Prop :=
  Value.lookup? f.name given = none ∧
    ((∃ fault, base f.name = .error fault) ∨ base f.name = .ok none ∧ c.defaultOf? f = none)

/-- A value as a base. Its members are read without a fault. -/
def asBase (v : Value) (name : String) : Except ConstructionFault (Option Value) :=
  .ok (v.member? name)

/-- What a base has under a name, as far as it can be read. -/
def known (base : String → Except ConstructionFault (Option Value)) (name : String) :
    Option Value :=
  match base name with
  | .ok v => v
  | .error _ => none

/-- Every field that is not given can be read from a base, which may have nothing there. -/
def IsReadable (c : RecordClass) (base : String → Except ConstructionFault (Option Value))
    (given : List (String × Value)) : Prop :=
  ∀ f ∈ c.storedFields, Value.lookup? f.name given = none → ∃ v, base f.name = .ok v

/-- Where an update takes a field from. -/
def source (c : RecordClass) (base : String → Option Value) (given : List (String × Value))
    (f : FieldDecl) : Option Default :=
  (((Value.lookup? f.name given).or (base f.name)).map .value).or (c.defaultOf? f)

/-- A field with the value that its source has on an occasion. -/
def takeField (source : FieldDecl → Option Default) (occasion : Nat) (f : FieldDecl) :
    Except ConstructionFault (String × Value) :=
  match source f with
  | some d => (d.at occasion).map fun v => (f.name, v)
  | none => .error .badFields

section

variable {fields : List FieldDecl} {r : List (String × Value)}
  {source : FieldDecl → Option Default} {occasion : Nat}

lemma takeField_eq_ok_iff {d : FieldDecl} {field : String × Value} :
    takeField source occasion d = .ok field ↔
      field.1 = d.name ∧
        ∃ default, source d = some default ∧ default.at occasion = .ok field.2 := by
  rw [takeField]
  cases source d with
  | none => simp
  | some default =>
    cases hvalue : default.at occasion with
    | error fault => simp [hvalue, Except.map]
    | ok v => simp [hvalue, Except.map, Prod.ext_iff, eq_comm]

lemma map_fst_of_takeField (h : fields.mapM (takeField source occasion) = .ok r) :
    r.map (·.1) = fields.map (·.name) := by
  have hboth := mapM_eq_ok_iff.mp h
  clear h
  induction hboth with
  | nil => rfl
  | cons hfield _ ih => rw [List.map_cons, List.map_cons, (takeField_eq_ok_iff.mp hfield).1, ih]

/-- What is taken is found again under the name of the field. -/
lemma lookup?_of_takeField (hnodup : (fields.map (·.name)).Nodup)
    (h : fields.mapM (takeField source occasion) = .ok r) {d : FieldDecl} (hd : d ∈ fields) :
    ∃ v default, source d = some default ∧ default.at occasion = .ok v ∧
      Value.lookup? d.name r = some v := by
  obtain ⟨field, hmem, hfield⟩ := exists_of_mapM_eq_ok h hd
  obtain ⟨hname, default, hsource, hvalue⟩ := takeField_eq_ok_iff.mp hfield
  refine ⟨field.2, default, hsource, hvalue, ?_⟩
  rw [← hname]
  exact Value.lookup?_of_mem (map_fst_of_takeField h ▸ hnodup) hmem

/-- A record in which a field is found under each name is taken field by field. -/
lemma mapM_takeField_eq_ok (hnodup : (fields.map (·.name)).Nodup)
    (hr : r.map (·.1) = fields.map (·.name))
    (h : ∀ d ∈ fields, ∀ v, Value.lookup? d.name r = some v → source d = some (.value v)) :
    fields.mapM (takeField source occasion) = .ok r := by
  have hequal : List.Forall₂ (· = ·) (r.map (·.1)) (fields.map (·.name)) :=
    hr ▸ List.forall₂_refl _
  have hnames : List.Forall₂ (fun field d => field ∈ r ∧ field.1 = d.name) r fields := by
    rw [List.forall₂_map_left_iff, List.forall₂_map_right_iff] at hequal
    exact (List.forall₂_and_left _ _).mpr ⟨fun _ => id, hequal⟩
  have hboth := (List.forall₂_and_left _ _).mpr ⟨fun d hd => h d hd, hnames.flip⟩
  rw [mapM_eq_ok_iff]
  refine hboth.imp fun d field hfield => ?_
  obtain ⟨hsource, hmem, hname⟩ := hfield
  have hlookup : Value.lookup? d.name r = some field.2 := by
    rw [← hname]
    exact Value.lookup?_of_mem (hr ▸ hnodup) hmem
  exact takeField_eq_ok_iff.mpr ⟨hname, _, hsource _ hlookup, rfl⟩

end

namespace IsPlain

variable {c : RecordClass} (hc : c.IsPlain)

include hc

lemma names_spec :
    (c.fields.map (·.name)).Nodup ∧ ∀ f ∈ c.fields, Text.normalize f.name = f.name := by
  have hcheck := hc.check_eq
  rw [check, if_neg (by simp [hc.style_eq])] at hcheck
  split at hcheck
  · exact absurd hcheck nofun
  rename_i hnames
  rw [Bool.or_eq_true, not_or, Bool.not_eq_true', Bool.not_eq_false] at hnames
  cases hfields : checkFields false c.fields with
  | error fault =>
    rw [hfields] at hcheck
    exact absurd hcheck nofun
  | ok _ =>
    rw [hfields] at hcheck
    change checkSpelling (c.fields.map (·.name)) = .ok () at hcheck
    unfold checkSpelling at hcheck
    split_ifs at hcheck with hapart hspelling
    refine ⟨Name.nodup_of_areDistinct hnames.1, fun f hf => ?_⟩
    by_contra hne
    refine hspelling (List.any_eq_true.mpr ⟨f.name, List.mem_map_of_mem hf, ?_⟩)
    exact decide_eq_true hne

lemma nodup_storedFields : (c.storedFields.map (·.name)).Nodup :=
  hc.names_spec.1.sublist (List.filter_sublist.map _)

lemma normalize_name {f : FieldDecl} (hf : f ∈ c.storedFields) : Text.normalize f.name = f.name :=
  hc.names_spec.2 f (List.mem_of_mem_filter hf)

lemma fieldNames_eq : c.fieldNames = c.storedFields.map (·.name) := by
  rw [fieldNames, hc.style_eq]
  dsimp only
  rw [List.filter_eq_self.mpr hc.isInit]

lemma mem_parameterFields {f : FieldDecl} (hf : f ∈ c.storedFields) : f ∈ c.parameterFields := by
  rw [parameterFields, if_pos hc.style_eq]
  exact List.mem_filter.mpr ⟨List.mem_of_mem_filter hf, hc.isInit f hf⟩

lemma name_mem_parameters {f : FieldDecl} (hf : f ∈ c.storedFields) : f.name ∈ c.parameters := by
  rw [parameters, ← hc.normalize_name hf]
  exact List.mem_map_of_mem (hc.mem_parameterFields hf)

lemma assignmentFault?_eq_none {f : FieldDecl} (hf : f ∈ c.storedFields) :
    assignmentFault? f = none := by
  have hname := hc.ownName f hf
  have hclass : f.name ≠ "__class__" := by
    intro h
    rw [h] at hname
    exact absurd hname (by decide)
  have href : f.name ≠ "__weakref__" := by
    intro h
    rw [h] at hname
    exact absurd hname (by decide)
  rw [assignmentFault?, if_neg hclass, if_neg href, ite_self]

/-- What an instance of a class has under the name of a field. -/
lemma member?_record {r : List (String × Value)} {f : FieldDecl} {v : Value}
    (hf : f ∈ c.storedFields) (h : Value.lookup? f.name r = some v) :
    (Value.record c.name r).member? f.name = some v := by
  have hclass : f.name ≠ "__class__" := by
    intro heq
    have hname := hc.ownName f hf
    rw [heq] at hname
    exact absurd hname (by decide)
  rw [Value.member?, if_neg hclass, Value.part?, h]
  rfl

end IsPlain

variable {c : RecordClass} {base : String → Option Value} {given : List (String × Value)}
  {occasion : Nat}

/-- The given fields, and behind them those that only a base has, if that can always be read. -/
def completed (c : RecordClass) (base : String → Option Value) (given : List (String × Value)) :
    List (String × Value) :=
  given ++ c.fieldNames.filterMap fun name =>
    (if given.any (·.1 == name) then none else base name).map fun v => (name, v)

/-- A field that is not given is asked of the base. -/
lemma mem_missing_iff (hc : c.IsPlain) {name : String} :
    name ∈ (c.fieldNames.filter fun name => !given.any (·.1 == name)) ↔
      ∃ f ∈ c.storedFields, f.name = name ∧ Value.lookup? f.name given = none := by
  rw [List.mem_filter, hc.fieldNames_eq, List.mem_map, Bool.not_eq_true',
    ← Value.lookup?_eq_none_iff]
  constructor
  · rintro ⟨⟨f, hf, rfl⟩, hnone⟩
    exact ⟨f, hf, rfl, hnone⟩
  · rintro ⟨f, hf, rfl, hnone⟩
    exact ⟨⟨f, hf, rfl⟩, hnone⟩

lemma complete_eq (hc : c.IsPlain) {base : String → Except ConstructionFault (Option Value)}
    (hread : c.IsReadable base given) :
    c.complete base given = .ok (c.completed (known base) given) := by
  have hwalk : (c.fieldNames.filter fun name => !given.any (·.1 == name)).mapM
      (fun name => do return (← base name).map fun v => (name, v)) =
        .ok ((c.fieldNames.filter fun name => !given.any (·.1 == name)).map fun name =>
          (known base name).map fun v => (name, v)) := by
    rw [mapM_eq_ok_iff, List.forall₂_map_right_iff, List.forall₂_same]
    intro name hname
    obtain ⟨f, hf, rfl, hnone⟩ := (mem_missing_iff hc).mp hname
    obtain ⟨v, hv⟩ := hread f hf hnone
    simp [known, hv, bind, Except.bind, pure, Except.pure]
  rw [complete, hwalk, completed]
  change Except.ok (given ++ _) = _
  rw [List.filterMap_map, List.filterMap_filter]
  congr 3
  funext name
  cases given.any (·.1 == name) <;> rfl

/-- Reading a field that is not given may fail, and then there is no update. -/
lemma exists_update_eq_error (hc : c.IsPlain) (lib : Libraries) (occasion : Nat)
    {base : String → Except ConstructionFault (Option Value)} {f : FieldDecl}
    (hf : f ∈ c.storedFields) (hnone : Value.lookup? f.name given = none)
    {fault : ConstructionFault} (hfault : base f.name = .error fault) :
    ∃ fault, c.update lib occasion base given = .error fault := by
  cases hupdate : c.update lib occasion base given with
  | error fault => exact ⟨fault, rfl⟩
  | ok r =>
    obtain ⟨fields, hcomplete, -⟩ := bind_eq_ok_iff.mp hupdate
    obtain ⟨found, hfound, -⟩ := bind_eq_ok_iff.mp hcomplete
    obtain ⟨_, -, hread⟩ := exists_of_mapM_eq_ok hfound ((mem_missing_iff hc).mpr ⟨f, hf, rfl, hnone⟩)
    simp [hfault, bind, Except.bind] at hread

lemma isReadable_of_update (hc : c.IsPlain) {lib : Libraries}
    {base : String → Except ConstructionFault (Option Value)} {r : List (String × Value)}
    (h : c.update lib occasion base given = .ok r) : c.IsReadable base given := by
  intro f hf hnone
  cases hbase : base f.name with
  | ok v => exact ⟨v, rfl⟩
  | error fault =>
    obtain ⟨fault, herror⟩ := exists_update_eq_error hc lib occasion hf hnone hbase
    exact absurd (h.symm.trans herror) nofun

lemma lookup?_completed (hc : c.IsPlain) {f : FieldDecl} (hf : f ∈ c.storedFields) :
    Value.lookup? f.name (c.completed base given) =
      (Value.lookup? f.name given).or (base f.name) := by
  rw [completed, Value.lookup?_append, Value.lookup?_filterMap]
  · cases hgiven : Value.lookup? f.name given with
    | some v => rfl
    | none => rw [Value.lookup?_eq_none_iff.mp hgiven, if_neg (by simp)]
  · rw [hc.fieldNames_eq]
    exact List.mem_map_of_mem hf

lemma areKeywords_completed (hc : c.IsPlain) (hgiven : c.AreKeywords given) :
    c.AreKeywords (c.completed base given) := by
  intro field hfield
  rcases List.mem_append.mp hfield with hfield | hfield
  · exact hgiven field hfield
  · obtain ⟨name, hname, hpair⟩ := List.mem_filterMap.mp hfield
    rw [hc.fieldNames_eq] at hname
    obtain ⟨v, -, rfl⟩ := Option.map_eq_some_iff.mp hpair
    exact hname

/-- The constructor takes what an update gives it exactly if every field has a source. -/
lemma accepts_completed_iff (hc : c.IsPlain) (hgiven : c.AreKeywords given) :
    c.accepts (c.completed base given) ↔ ∀ f ∈ c.storedFields, (source c base given f).isSome := by
  have hknown : (c.completed base given).all fun field => c.parameters.contains field.1 := by
    rw [List.all_eq_true]
    intro field hfield
    obtain ⟨f, hf, hname⟩ := List.mem_map.mp (areKeywords_completed hc hgiven field hfield)
    rw [List.contains_iff_mem, ← hname]
    exact hc.name_mem_parameters hf
  have hsource : ∀ f ∈ c.storedFields,
      (source c base given f).isSome =
        ((Value.lookup? (Text.normalize f.name) (c.completed base given)).isSome ||
          (c.defaultOf? f).isSome) := by
    intro f hf
    rw [hc.normalize_name hf, lookup?_completed hc hf, source, Option.isSome_or, Option.isSome_map]
  rw [accepts, hknown, Bool.true_and, List.all_eq_true]
  constructor
  · intro h f hf
    rw [hsource f hf]
    exact h f (hc.mem_parameterFields hf)
  · intro h f hf
    rw [parameterFields, if_pos hc.style_eq] at hf
    have hf := List.mem_of_mem_filter hf
    cases hpassed : f.isPassedOn with
    | true => rw [hc.passedOn_default f hf hpassed, Bool.or_true]
    | false =>
      have hf : f ∈ c.storedFields := List.mem_filter.mpr ⟨hf, by simp [hpassed]⟩
      rw [← hsource f hf]
      exact h f hf

/-- A field is stored with the value that its source has. -/
lemma storeField_eq (hc : c.IsPlain) {f : FieldDecl} (hf : f ∈ c.storedFields)
    (hsome : (source c base given f).isSome) :
    c.storeField occasion (c.completed base given) f =
      takeField (source c base given) occasion f := by
  have hvalue : c.initialValue occasion (c.completed base given) f =
      (match source c base given f with
        | some d => d.at occasion
        | none => .error .unset) := by
    rw [initialValue, if_pos (hc.isInit f hf), hc.normalize_name hf, lookup?_completed hc hf, source]
    cases (Value.lookup? f.name given).or (base f.name) with
    | some v => rfl
    | none => cases c.defaultOf? f <;> rfl
  obtain ⟨d, hd⟩ := Option.isSome_iff_exists.mp hsome
  rw [storeField, hvalue, hc.assignmentFault?_eq_none hf, takeField, hd]
  dsimp only
  cases d.at occasion <;> rfl

/-- What is passed on has a value. -/
lemma exists_passedOn_eq_ok (hc : c.IsPlain) (occasion : Nat)
    (given : List (String × Value)) : ∃ passed, c.passedOn occasion given = .ok passed := by
  refine exists_mapM_eq_ok fun f hf => ?_
  obtain ⟨hf, hpassed⟩ := List.mem_filter.mp hf
  obtain ⟨d, hd⟩ := Option.isSome_iff_exists.mp (hc.passedOn_default f hf hpassed)
  obtain ⟨v, hv⟩ := hc.default_at f hf d hd occasion
  obtain ⟨w, hw⟩ : ∃ w, c.initialValue occasion given f = .ok w := by
    rw [initialValue, hd]
    cases if f.isInit then Value.lookup? (Text.normalize f.name) given else none with
    | some w => exact ⟨w, rfl⟩
    | none => exact ⟨v, hv⟩
  exact ⟨(f.name, w), by rw [hw]; rfl⟩

/-- Defaults do not fail, and what is given or on the base is a value already. -/
lemma IsPlain.source_at (hc : c.IsPlain) {f : FieldDecl} (hf : f ∈ c.fields) {d : Default}
    (hd : source c base given f = some d) (occasion : Nat) : ∃ v, d.at occasion = .ok v := by
  rw [source, Option.or_eq_some_iff] at hd
  rcases hd with hvalue | ⟨-, hdefault⟩
  · obtain ⟨v, -, rfl⟩ := Option.map_eq_some_iff.mp hvalue
    exact ⟨v, rfl⟩
  · exact hc.default_at f hf d hdefault occasion

/-- A constructor takes every field from its source. -/
lemma construct_completed (hc : c.IsPlain) (hgiven : c.AreKeywords given) (lib : Libraries) :
    c.construct lib occasion (c.completed base given) =
      c.storedFields.mapM (takeField (source c base given) occasion) := by
  rw [construct, hc.style_eq]
  dsimp only
  by_cases hall : ∀ f ∈ c.storedFields, (source c base given f).isSome
  · have hstored : c.storedFields.mapM (c.storeField occasion (c.completed base given)) =
        c.storedFields.mapM (takeField (source c base given) occasion) :=
      mapM_congr fun f hf => storeField_eq hc hf (hall f hf)
    rw [constructExact, if_pos ((accepts_completed_iff hc hgiven).mpr hall), hstored]
    cases c.storedFields.mapM (takeField (source c base given) occasion) with
    | error fault => rfl
    | ok stored =>
      cases hfinish : c.finish with
      | none => rfl
      | some finish =>
        obtain ⟨passed, hpassed⟩ :=
          exists_passedOn_eq_ok hc occasion (c.completed base given)
        simp only [bind, Except.bind, hpassed]
        exact hc.finish_eq finish hfinish occasion stored passed
  · rw [constructExact, if_neg (mt (accepts_completed_iff hc hgiven).mp hall)]
    cases htake : c.storedFields.mapM (takeField (source c base given) occasion) with
    | error fault =>
      -- What fails is a field without a source.
      obtain ⟨f, hf, hfault⟩ := exists_of_mapM_eq_error htake
      rw [takeField] at hfault
      cases hsource : source c base given f with
      | none =>
        rw [hsource] at hfault
        rw [← Except.error.inj hfault]
      | some d =>
        obtain ⟨v, hv⟩ := hc.source_at (List.mem_of_mem_filter hf) hsource occasion
        rw [hsource] at hfault
        simp [hv, Except.map] at hfault
    | ok r =>
      refine absurd (fun f hf => ?_) hall
      obtain ⟨-, d, hd, -, -⟩ := lookup?_of_takeField hc.nodup_storedFields htake hf
      rw [hd, Option.isSome_some]

lemma lookup?_override (name : String) (given other : List (String × Value)) :
    Value.lookup? name (override given other) =
      (Value.lookup? name other).or (Value.lookup? name given) := by
  have hgiven : Value.lookup? name (given.map fun field =>
      (field.1, (Value.lookup? field.1 other).getD field.2)) =
        (Value.lookup? name given).map fun v => (Value.lookup? name other).getD v := by
    induction given with
    | nil => rfl
    | cons field given ih =>
      rw [List.map_cons]
      by_cases hname : field.1 = name
      · obtain rfl := hname
        simp [Value.lookup?]
      · simpa [Value.lookup?, hname] using ih
  have hother : Value.lookup? name given = none → Value.lookup? name (other.filter fun field =>
      !given.any (·.1 == field.1)) = Value.lookup? name other := by
    intro hnone
    have hnew := Value.lookup?_eq_none_iff.mp hnone
    rw [Value.lookup?, List.find?_filter, Value.lookup?]
    congr 2
    funext field
    by_cases hname : field.1 = name
    · simp [hname, hnew]
    · simp [hname]
  rw [override, Value.lookup?_append, hgiven]
  cases hlookup : Value.lookup? name given with
  | none => rw [hother hlookup, Option.or_none]; rfl
  | some v => cases Value.lookup? name other <;> rfl

lemma areKeywords_override {other : List (String × Value)} (hgiven : c.AreKeywords given)
    (hother : c.AreKeywords other) : c.AreKeywords (override given other) := by
  intro field hfield
  rcases List.mem_append.mp hfield with hfield | hfield
  · obtain ⟨pair, hpair, rfl⟩ := List.mem_map.mp hfield
    exact hgiven pair hpair
  · exact hother field (List.mem_of_mem_filter hfield)

/-- Fields are not all taken exactly if one of them has no source. -/
lemma exists_takeField_eq_error_iff (hc : c.IsPlain) :
    (∃ fault, c.storedFields.mapM (takeField (source c base given) occasion) = .error fault) ↔
      ∃ f ∈ c.storedFields, source c base given f = none := by
  constructor
  · rintro ⟨fault, h⟩
    obtain ⟨f, hf, hfault⟩ := exists_of_mapM_eq_error h
    refine ⟨f, hf, ?_⟩
    by_contra hsome
    obtain ⟨d, hd⟩ := Option.ne_none_iff_exists'.mp hsome
    obtain ⟨v, hv⟩ := hc.source_at (List.mem_of_mem_filter hf) hd occasion
    rw [takeField, hd] at hfault
    simp [hv, Except.map] at hfault
  · rintro ⟨f, hf, hnone⟩
    cases htake : c.storedFields.mapM (takeField (source c base given) occasion) with
    | error fault => exact ⟨fault, rfl⟩
    | ok r =>
      obtain ⟨-, d, hd, -, -⟩ := lookup?_of_takeField hc.nodup_storedFields htake hf
      exact absurd (hnone.symm.trans hd) nofun

section Bases

variable {base : String → Except ConstructionFault (Option Value)} {f : FieldDecl}
  {r : List (String × Value)}

/-- An update takes every field from its source if the base can be read. -/
lemma update_eq (hc : c.IsPlain) (hread : c.IsReadable base given) (hgiven : c.AreKeywords given)
    (lib : Libraries) : c.update lib occasion base given =
      c.storedFields.mapM (takeField (source c (known base) given) occasion) := by
  rw [update, complete_eq hc hread]
  exact construct_completed hc hgiven lib

/-- An update that succeeds has taken every field from its source. -/
lemma takeField_of_update (hc : c.IsPlain) (hgiven : c.AreKeywords given) {lib : Libraries}
    (h : c.update lib occasion base given = .ok r) :
    c.IsReadable base given ∧
      c.storedFields.mapM (takeField (source c (known base) given) occasion) = .ok r := by
  have hread := isReadable_of_update hc h
  exact ⟨hread, (update_eq hc hread hgiven lib).symm.trans h⟩

/-- What the source of a field comes to is what an update is to take for it. -/
lemma takes_of_source (hread : c.IsReadable base given) (hf : f ∈ c.storedFields) {d : Default}
    {v : Value} (hsource : source c (known base) given f = some d)
    (hvalue : d.at occasion = .ok v) : c.Takes base given occasion f v := by
  rw [source] at hsource
  cases hgiven : Value.lookup? f.name given with
  | some w =>
    rw [hgiven] at hsource
    obtain rfl : Default.value w = d := Option.some.inj hsource
    obtain rfl := Except.ok.inj hvalue
    exact .given hgiven
  | none =>
    obtain ⟨w?, hbase⟩ := hread f hf hgiven
    rw [hgiven, known, hbase] at hsource
    cases w? with
    | some w =>
      obtain rfl : Default.value w = d := Option.some.inj hsource
      obtain rfl := Except.ok.inj hvalue
      exact .base hgiven hbase
    | none => exact .default hgiven hbase hsource hvalue

/-- An update fails exactly if it lacks some field. -/
lemma update_eq_error_iff (hc : c.IsPlain) (hgiven : c.AreKeywords given) (lib : Libraries) :
    (∃ fault, c.update lib occasion base given = .error fault) ↔
      ∃ f ∈ c.storedFields, c.Lacks base given f := by
  by_cases hread : c.IsReadable base given
  · rw [update_eq hc hread hgiven, exists_takeField_eq_error_iff hc]
    refine exists_congr fun f => and_congr_right fun hf => ?_
    rw [source, Option.or_eq_none_iff, Option.map_eq_none_iff, Option.or_eq_none_iff, and_assoc]
    refine and_congr_right fun hnone => ?_
    obtain ⟨v, hv⟩ := hread f hf hnone
    simp [known, hv]
  · simp only [IsReadable, not_forall] at hread
    obtain ⟨f, hf, hnone, hunread⟩ := hread
    cases hbase : base f.name with
    | ok v => exact absurd ⟨v, hbase⟩ hunread
    | error fault =>
      exact iff_of_true (exists_update_eq_error hc lib occasion hf hnone hbase)
        ⟨f, hf, hnone, .inl ⟨fault, hbase⟩⟩

lemma isReadable_asBase (v : Value) : c.IsReadable (asBase v) given :=
  fun f _ _ => ⟨v.member? f.name, rfl⟩

lemma known_asBase (v : Value) (name : String) : known (asBase v) name = v.member? name := rfl

end Bases

/-- An object equals itself if objects are compared by their fields. -/
lemma areEqual_refl (hc : c.IsPlain) (r : List (String × Value)) : c.AreEqual r r :=
  ⟨hc.comparesFields, List.forall₂_same.mpr fun _ _ => ⟨rfl, .inl rfl⟩⟩

/-- The laws of record updates, for a class that leaves its objects to the constructor and to the
comparison that are made for it. An update takes every field from what is given, else from the base,
else from its default, and it fails exactly if it lacks some field: that is not given, and it cannot
be read from the base, or the base has nothing there and the field has no default. Updating an
instance with nothing gives an object with the same fields, which is equal to it. Two updates one
after the other are one update, in which the later fields win over the earlier ones, if the defaults
come to the same on both occasions. -/
theorem update_spec (hc : c.IsPlain) (lib : Libraries)
    (base : String → Except ConstructionFault (Option Value))
    {given other : List (String × Value)} (hgiven : c.AreKeywords given)
    (hother : c.AreKeywords other) (occasion : Nat) :
    (∀ r, c.update lib occasion base given = .ok r →
      List.Forall₂ (fun f field => field.1 = f.name ∧ c.Takes base given occasion f field.2)
        c.storedFields r) ∧
    ((∃ fault, c.update lib occasion base given = .error fault) ↔
      ∃ f ∈ c.storedFields, c.Lacks base given f) ∧
    (∀ r, r.map (·.1) = c.storedFields.map (·.name) →
      c.update lib occasion (asBase (.record c.name r)) [] = .ok r ∧ c.AreEqual r r) ∧
    (∀ r later once, c.update lib occasion base given = .ok r →
      (∀ f ∈ c.storedFields, ∀ d, c.defaultOf? f = some d → d.at occasion = d.at once) →
      c.update lib later (asBase (.record c.name r)) other =
        c.update lib once base (override given other)) := by
  have hempty : c.AreKeywords [] := nofun
  refine ⟨fun r h => ?_, update_eq_error_iff hc hgiven lib, fun r hr => ⟨?_, areEqual_refl hc r⟩,
    fun r later once h hsame => ?_⟩
  · obtain ⟨hread, htake⟩ := takeField_of_update hc hgiven h
    have hsteps := (List.forall₂_and_left _ _).mpr ⟨fun f hf => hf, mapM_eq_ok_iff.mp htake⟩
    refine hsteps.imp fun f field ⟨hf, hfield⟩ => ?_
    obtain ⟨hname, d, hsource, hvalue⟩ := takeField_eq_ok_iff.mp hfield
    exact ⟨hname, takes_of_source hread hf hsource hvalue⟩
  · rw [update_eq hc (isReadable_asBase _) hempty]
    refine mapM_takeField_eq_ok hc.nodup_storedFields hr fun f hf v hlookup => ?_
    rw [source, known_asBase, hc.member?_record hf hlookup]
    rfl
  · obtain ⟨hread, htake⟩ := takeField_of_update hc hgiven h
    -- What is read for the two updates together has been read for the first one.
    have honce : c.IsReadable base (override given other) := by
      intro f hf hnone
      rw [lookup?_override, Option.or_eq_none_iff] at hnone
      exact hread f hf hnone.2
    rw [update_eq hc (isReadable_asBase _) hother,
      update_eq hc honce (areKeywords_override hgiven hother)]
    refine mapM_congr fun f hf => ?_
    -- The inner update has found a value for the field, so the default has had its turn.
    obtain ⟨v, d, hsource, hvalue, hlookup⟩ := lookup?_of_takeField hc.nodup_storedFields htake hf
    have houter : source c (known (asBase (.record c.name r))) other f =
        some (.value ((Value.lookup? f.name other).getD v)) := by
      rw [source, known_asBase, hc.member?_record hf hlookup]
      cases Value.lookup? f.name other <;> rfl
    rw [takeField, houter, takeField, source, lookup?_override]
    cases hlast : Value.lookup? f.name other with
    | some w => rfl
    | none =>
      rw [Option.none_or]
      rw [source] at hsource
      have honce : d.at once = .ok v := by
        rw [Option.or_eq_some_iff] at hsource
        rcases hsource with hfixed | ⟨-, hdefault⟩
        · obtain ⟨w, -, rfl⟩ := Option.map_eq_some_iff.mp hfixed
          exact hvalue
        · rw [← hsame f hf d hdefault, hvalue]
      rw [hsource]
      dsimp only
      rw [honce]
      rfl

/-! ### Classes that take a hand in their objects -/

/-- A class with one field of a name. -/
def oneField (name : String) (default : Option Default := none) : RecordClass where
  style := .dataclass
  name := "P"
  fields := [{ name, hint := .int, default }]

/-- What adds one to every integer of a new object. -/
def addOne (_ : Nat) (stored _ : List (String × Value)) :
    Except ConstructionFault (List (String × Value)) :=
  .ok (stored.map fun field => match field with
    | (name, .int n) => (name, .int (n + 1))
    | field => field)

/-- Each of the laws fails for some class all of whose fields the constructor takes: where a field
has a name of the language and cannot be set although it is given, where a value that is no field
has to be given, where a default fails, where the class changes the fields of its new objects, where
a default is made anew each time, where objects are not compared, and where a field has a default
but cannot be read from the base. -/
theorem not_update_spec :
    let noBase : String → Except ConstructionFault (Option Value) := fun _ => .ok none
    let unreadable : String → Except ConstructionFault (Option Value) := fun _ => .error .raised
    let reserved := oneField "__weakref__"
    let passing : RecordClass := { oneField "x" with fields :=
      [{ name := "x", hint := .int }, { name := "y", hint := .int, isPassedOn := true }] }
    let failing := oneField "x" (some (.made fun _ => .error .raised))
    let changing : RecordClass := { oneField "x" with finish := some addOne }
    let counting := oneField "x" (some (.made fun n => .ok (.int n)))
    let apart : RecordClass := { oneField "x" with comparesFields := false }
    let defaulted := oneField "x" (some (.value (.int 3)))
    let r : List (String × Value) := [("x", .int 1)]
    (∀ c ∈ [reserved, passing, failing, changing, counting, apart, defaulted],
      c.style = .dataclass ∧ c.check = .ok () ∧ ∀ f ∈ c.fields, f.isInit) ∧ ∀ lib,
    reserved.update lib 0 noBase [("__weakref__", .int 1)] = .error .unset ∧
    passing.update lib 0 noBase r = .error .badFields ∧
    failing.update lib 0 noBase [] = .error .raised ∧
    changing.update lib 0 noBase r = .ok [("x", .int 2)] ∧
    changing.update lib 0 (asBase (.record "P" r)) [] = .ok [("x", .int 2)] ∧
    (counting.update lib 0 noBase [] = .ok [("x", .int 0)] ∧
      counting.update lib 1 (asBase (.record "P" [("x", .int 0)])) [] = .ok [("x", .int 0)] ∧
      counting.update lib 2 noBase [] = .ok [("x", .int 2)]) ∧
    (apart.update lib 0 (asBase (.record "P" r)) [] = .ok r ∧ ¬apart.AreEqual r r) ∧
    defaulted.update lib 0 unreadable [] = .error .raised := by
  refine ⟨by decide +kernel, fun lib => ?_⟩
  refine ⟨rfl, rfl, rfl, rfl, rfl, ⟨rfl, rfl, rfl⟩, ⟨rfl, fun h => ?_⟩, rfl⟩
  exact absurd h.1 (by decide)

/-- A class with a field that has to be given, one that has a default, and one whose default is made
at each construction. -/
def settingsClass : RecordClass where
  style := .dataclass
  name := "Settings"
  fields := [{ name := "name", hint := .any },
    { name := "retries", hint := .any, default := some (.value (.int 3)) },
    { name := "tags", hint := .any, default := some (.made fun _ => .ok (.list [])) }]

/-- A base of another type has one of the fields, and another one cannot be read from it. -/
def settingsBase : String → Except ConstructionFault (Option Value)
  | "name" => .error .raised
  | "retries" => .ok (some (.int 4))
  | _ => .ok none

lemma settingsClass_default_at {f : FieldDecl} (hf : f ∈ settingsClass.fields) {d : Default}
    (hd : settingsClass.defaultOf? f = some d) : ∃ v, ∀ occasion, d.at occasion = .ok v := by
  simp only [settingsClass, List.mem_cons, List.not_mem_nil, or_false] at hf
  rcases hf with rfl | rfl | rfl
  · exact absurd hd nofun
  · obtain rfl := Option.some.inj hd
    exact ⟨_, fun _ => rfl⟩
  · obtain rfl := Option.some.inj hd
    exact ⟨_, fun _ => rfl⟩

theorem update_spec_settings :
    let lib := StandIn.libraries
    let given := [("name", Value.text "a")]
    let other := [("retries", Value.int 5), ("name", Value.text "b")]
    let r := [("name", Value.text "a"), ("retries", Value.int 4), ("tags", Value.list [])]
    settingsClass.IsPlain ∧ settingsClass.AreKeywords given ∧
      settingsClass.AreKeywords other ∧ settingsClass.update lib 0 settingsBase given = .ok r ∧
      settingsClass.update lib 1 (asBase (.record settingsClass.name r)) [] = .ok r ∧
      settingsClass.update lib 1 (asBase (.record settingsClass.name r)) other =
        settingsClass.update lib 2 settingsBase (override given other) := by
  intro lib given other r
  have hc : settingsClass.IsPlain :=
    { style_eq := rfl
      check_eq := by decide +kernel
      isInit := by decide
      ownName := by decide
      passedOn_default := by decide
      default_at := by
        intro f hf d hd occasion
        obtain ⟨v, hv⟩ := settingsClass_default_at hf hd
        exact ⟨v, hv occasion⟩
      finish_eq := by
        intro finish hfinish
        exact absurd hfinish nofun
      comparesFields := rfl }
  have hgiven : settingsClass.AreKeywords given := by
    unfold AreKeywords
    decide
  have hother : settingsClass.AreKeywords other := by
    unfold AreKeywords
    decide
  have hinner : settingsClass.update lib 0 settingsBase given = .ok r := rfl
  obtain ⟨-, -, hself, -⟩ := update_spec hc lib settingsBase hgiven hother 1
  obtain ⟨-, -, -, htwice⟩ := update_spec hc lib settingsBase hgiven hother 0
  refine ⟨hc, hgiven, hother, hinner, (hself r rfl).1, htwice r 1 2 hinner ?_⟩
  intro f hf d hd
  obtain ⟨v, hv⟩ := settingsClass_default_at (List.mem_of_mem_filter hf) hd
  rw [hv, hv]

end RecordClass

end FieldComposition
