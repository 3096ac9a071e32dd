import FieldComposition.Proofs.SeparableCode

/-!
# Names of sources are identifiers

Where the stem and the names of the entries are identifiers, so are the names that the sources are
bound to (`isIdentifier_bindingNames`). `bindingNames_spec` sums up what these names are.
-/

namespace FieldComposition

namespace FieldTable

variable {stem : String}

lemma isIdentifier_bindingName {group : Group} (hstem : Text.isIdentifier stem.toList)
    (hgroup : ∀ e ∈ group.entries, Text.isIdentifier e.name.toList) :
    Text.isIdentifier (group.bindingName stem).toList := by
  rw [Group.bindingName, String.toList_append, String.toList_intercalate]
  refine (Text.isIdentifier_append (Text.ne_nil_of_isIdentifier hstem)).mpr ⟨hstem, ?_⟩
  apply Text.forall_mem_intercalate
  · exact fun c hc => (Text.isWordRest_underscore c hc).1
  · intro piece hpiece
    rw [List.map_map] at hpiece
    obtain ⟨e, he, rfl⟩ := List.mem_map.mp hpiece
    exact Text.isIdentifierPart_of_isIdentifier (hgroup e he)

/-- The names are identifiers where the stem and the names of the entries are. -/
lemma isIdentifier_bindingNames {t : FieldTable} (hstem : Text.isIdentifier stem.toList)
    (hgroups : ∀ g ∈ t.groups, ∀ e ∈ g.entries, Text.isIdentifier e.name.toList) :
    ∀ name ∈ t.bindingNames stem, Text.isIdentifier name.toList := by
  apply forall_mem_bindingNames
  · intro group hgroup
    exact isIdentifier_bindingName hstem (hgroups group hgroup)
  · intro i name hname
    rw [String.toList_append, String.toList_append]
    apply (Text.isIdentifier_append (Text.ne_nil_of_isIdentifier hname)).mpr
    exact ⟨hname, fun c hc => (Text.isWordRest_index i c hc).1⟩

/-- The sources get one name each, all of them different. A source gets the natural name of its
group exactly if no group before it got that name, and otherwise this name with copies of its index
behind it, as few as it takes. Further groups change none of the names, and all of them are
identifiers if the stem passes its check and the names of the entries are identifiers. -/
theorem bindingNames_spec (t : FieldTable) (stem : String) :
    (t.bindingNames stem).length = t.groups.length ∧ (t.bindingNames stem).Nodup ∧
    (∀ i group, t.groups[i]? = some group →
      ((t.bindingNames stem)[i]? = some (group.bindingName stem) ↔
        group.bindingName stem ∉ (t.bindingNames stem).take i) ∧
      (group.bindingName stem ∈ (t.bindingNames stem).take i → ∃ n,
        (t.bindingNames stem)[i]? =
          some (suffixed ("_" ++ toString i) (n + 1) (group.bindingName stem)) ∧
        ∀ m ≤ n, suffixed ("_" ++ toString i) m (group.bindingName stem) ∈
          (t.bindingNames stem).take i)) ∧
    (∀ more, t.bindingNames stem <+:
      ({ t with groups := t.groups ++ more } : FieldTable).bindingNames stem) ∧
    (Settings.stemFault? stem = none →
      (∀ group ∈ t.groups, ∀ e ∈ group.entries, Text.isIdentifier e.name.toList) →
        ∀ name ∈ t.bindingNames stem, Text.isIdentifier name.toList) := by
  refine ⟨length_bindingNames t stem, nodup_bindingNames t stem, ?_, bindingNames_append t stem, ?_⟩
  · intro i group hgroup
    have hname := getElem?_bindingNames hgroup stem
    have hne : "_" ++ toString i ≠ "" := by simp
    have hfresh := freshen_not_mem hne ((t.bindingNames stem).take i) (group.bindingName stem)
    obtain ⟨n, hn, htaken⟩ := exists_freshen_eq ("_" ++ toString i)
      ((t.bindingNames stem).take i) (group.bindingName stem)
    rw [hn] at hname hfresh
    rw [hname]
    cases n with
    | zero =>
      rw [suffixed_zero] at hfresh ⊢
      exact ⟨⟨fun _ => hfresh, fun _ => rfl⟩, fun hmem => absurd hmem hfresh⟩
    | succ n =>
      have hmem := htaken 0 (Nat.succ_pos n)
      rw [suffixed_zero] at hmem
      constructor
      · constructor
        · intro heq
          exact absurd (Option.some.inj heq) (suffixed_ne hne n _)
        · intro hfree
          exact absurd hmem hfree
      · intro _
        exact ⟨n, rfl, fun m hm => htaken m (Nat.lt_succ_of_le hm)⟩
  · intro hstem hgroups
    exact isIdentifier_bindingNames (Settings.isIdentifier_of_stemFault hstem) hgroups

/-- The second source gets what is the natural name of the third one. -/
theorem bindingNames_spec_takenName :
    let t : FieldTable := { groups := [
      ⟨[{ name := "a" }, { name := "b" }], ⟨"x", .start⟩, .start⟩,
      ⟨[{ name := "a_b" }], ⟨"y", .start⟩, .start⟩,
      ⟨[{ name := "a_b_1" }], ⟨"z", .start⟩, .start⟩] }
    t.bindingNames "__" = ["__a_b", "__a_b_1", "__a_b_1_2"] ∧
      (∀ name ∈ t.bindingNames "__", Text.isIdentifier name.toList) ∧
      ∃ n, (t.bindingNames "__")[2]? = some (suffixed "_2" (n + 1) "__a_b_1") := by
  intro t
  have hnames : t.bindingNames "__" = ["__a_b", "__a_b_1", "__a_b_1_2"] := by decide +kernel
  obtain ⟨-, -, hchosen, -, hidentifiers⟩ := bindingNames_spec t "__"
  obtain ⟨n, hn, -⟩ := (hchosen 2 ⟨[{ name := "a_b_1" }], ⟨"z", .start⟩, .start⟩ rfl).2 (by
    rw [hnames]
    decide)
  exact ⟨hnames, hidentifiers (by decide +kernel) (by decide +kernel), n, hn⟩

end FieldTable

end FieldComposition
