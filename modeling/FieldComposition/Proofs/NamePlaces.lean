import Mathlib.Data.List.Chain
import FieldComposition.Proofs.EntryReading
import FieldComposition.Proofs.RewordedText

/-!
# Where names stand

The names in a well-formed phrase and the segments of its paths have the kind of a name, and they
stand at its start or right behind a sign that a word may follow (`TextPhrase.IsWellFormed.placed`).
-/

namespace FieldComposition

open Role (signs)

variable {host : Host} {stops : List TokenKind} {inGroup allowMut : Bool} {rule : Parser.ListRule}

namespace Role

/-- The token has a kind that goes with its role. -/
def Fits (host : Host) : Role × Token → Prop
  | (name, t) => host.isName t.kind
  | (segment, t) => t.kind = .ident
  | (sign, _) => True

/-- The token may stand right before a part. -/
def Introduces (q part : Role × Token) : Prop :=
  part.1 ≠ .sign → q.2.kind ∈ TokenKind.introducers

/-- Parts that fit their roles, and those that are not signs stand behind tokens that introduce
them. -/
structure Placed (host : Host) (parts : List (Role × Token)) : Prop where
  fits : ∀ part ∈ parts, Fits host part
  introduced : parts.IsChain Introduces

namespace Placed

variable {parts parts' : List (Role × Token)} {q part : Role × Token} {ts : List Token}

lemma nil : Placed host [] :=
  ⟨nofun, .nil⟩

lemma append (h : Placed host parts) (h' : Placed host parts')
    (hlink : ∀ q ∈ parts.getLast?, ∀ part ∈ parts'.head?, Introduces q part) :
    Placed host (parts ++ parts') := by
  refine ⟨fun part hpart => ?_, List.isChain_append.mpr ⟨h.introduced, h'.introduced, hlink⟩⟩
  exact (List.mem_append.mp hpart).elim (h.fits part) (h'.fits part)

lemma single (h : Fits host part) : Placed host [part] :=
  ⟨fun q hq => by rwa [List.mem_singleton.mp hq], .singleton _⟩

/-- Behind an introducer anything may stand. -/
lemma cons (h : Placed host parts) (hq : Fits host q)
    (hkind : q.2.kind ∈ TokenKind.introducers) : Placed host (q :: parts) :=
  (single hq).append h fun r hr _ _ _ => by
    obtain rfl := Option.some.inj hr
    exact hkind

/-- Before a sign anything may stand. -/
lemma append_sign {t : Token} (h : Placed host parts) (h' : Placed host ((.sign, t) :: parts')) :
    Placed host (parts ++ (.sign, t) :: parts') :=
  h.append h' fun _ _ part hpart hne => by
    obtain rfl := Option.some.inj hpart
    exact absurd rfl hne

lemma signs (ts : List Token) : Placed host (signs ts) := by
  induction ts with
  | nil => exact .nil
  | cons t ts ih =>
    have hfirst : Placed host [(.sign, t)] := single trivial
    refine hfirst.append ih fun _ _ part hpart hne => ?_
    obtain ⟨u, -, rfl⟩ := List.mem_map.mp (List.mem_of_mem_head? hpart)
    exact absurd rfl hne

lemma append_signs (h : Placed host parts) (ts : List Token) :
    Placed host (parts ++ Role.signs ts) := by
  cases ts with
  | nil => rwa [Role.signs, List.map_nil, List.append_nil]
  | cons t ts => exact h.append_sign (signs (t :: ts))

/-- Names and segments have the kind of a name. -/
lemma isName (h : Placed host parts) (hmem : part ∈ parts) (hpart : part.1 ≠ .sign) :
    host.isName part.2.kind := by
  have hfits := h.fits part hmem
  obtain ⟨_ | _ | _, t⟩ := part
  · exact hfits
  · rw [show t.kind = .ident from hfits]
    rfl
  · exact absurd rfl hpart

/-- What stands before a part that is no sign. -/
lemma introducer {before behind : List (Role × Token)}
    (h : Placed host (before ++ part :: behind)) (hpart : part.1 ≠ .sign) :
    ∀ q ∈ before.getLast?, q.2.kind ∈ TokenKind.introducers :=
  fun q hq => (List.isChain_append.mp h.introduced).2.2 q hq part rfl hpart

end Placed

end Role

lemma PathPhrase.IsWellFormed.placed {p : PathPhrase} (h : p.IsWellFormed) :
    Role.Placed host p.parts := by
  have hsegment {t : Token} (ht : t.kind = .ident) : Role.Placed host [(.segment, t)] :=
    .single ht
  have hsegments (first : Token) (hfirst : first.kind = .ident) : Role.Placed host
      ((.segment, first) :: ((p.segments.flatMap fun s => [(.sign, s.1), (.segment, s.2)]) ++
        [(.sign, p.closeBracket)])) := by
    have hwf := h.segments
    generalize p.segments = segments at hwf
    induction segments generalizing first with
    | nil => exact (hsegment hfirst).append_sign (.signs [_])
    | cons s segments ih =>
      obtain ⟨hseparator, hnext⟩ := hwf s List.mem_cons_self
      have hrest := ih s.2 hnext fun s hs => hwf s (List.mem_cons_of_mem _ hs)
      refine (hsegment hfirst).append_sign
        (hrest.cons trivial ?_)
      rcases hseparator with hkind | hkind <;> rw [hkind] <;> decide
  have hparts : p.parts = (.sign, p.openBracket) :: (signs p.root.toList ++ (.segment, p.first) ::
      ((p.segments.flatMap fun s => [(.sign, s.1), (.segment, s.2)]) ++
        [(.sign, p.closeBracket)])) := by
    simp [parts, path]
  rw [hparts]
  refine Role.Placed.cons ?_ trivial (by rw [h.openBracket]; decide)
  cases hroot : p.root with
  | none => exact hsegments p.first h.first
  | some t =>
    exact (hsegments p.first h.first).cons trivial (by rw [h.root t hroot]; decide)

lemma ModifierPhrase.IsWellFormed.placed {p : ModifierPhrase} (h : p.IsWellFormed) :
    Role.Placed host p.parts ∧
      ∀ q ∈ p.parts.getLast?, q.2.kind ∈ TokenKind.introducers := by
  have hpath : Role.Placed host (p.path.elim [] PathPhrase.parts) := by
    cases hpath : p.path with
    | none => exact .nil
    | some b => exact (h.path b hpath).placed
  refine ⟨hpath.append_signs p.signs, fun q hq => ?_⟩
  have hkinds : ∀ kinds ∈ [[], [TokenKind.amp], [.amp, .wordMut], [.plus], [.plus, .greater],
      [.greater]], ∀ kind ∈ kinds, kind ∈ TokenKind.introducers := by decide
  have hmem : p.signs.map Token.kind ∈ [[], [TokenKind.amp], [.amp, .wordMut], [.plus],
      [.plus, .greater], [.greater]] := by
    rcases Modifier.Kind.ofSigns?_isSome h.kind with hsigns | ⟨-, hsigns⟩
    · exact List.mem_append_left [[.plus], [.plus, .greater], [.greater]] hsigns
    · exact List.mem_append_right [[], [.amp], [.amp, .wordMut]] hsigns
  by_cases hnil : p.signs = []
  · rw [parts, hnil] at hq
    cases hpath : p.path with
    | none =>
      rw [hpath] at hq
      cases hq
    | some b =>
      rw [hpath] at hq
      have hlast : b.parts.getLast? = some (.sign, b.closeBracket) := by
        rw [PathPhrase.parts, ← List.cons_append, List.getLast?_concat]
      obtain rfl : (.sign, b.closeBracket) = q := by
        simpa [Role.signs, hlast] using hq
      rw [(h.path b hpath).closeBracket]
      decide
  · rw [parts, List.getLast?_append_of_ne_nil _ (by simpa [Role.signs] using hnil)] at hq
    obtain ⟨t, ht, rfl⟩ := List.mem_map.mp (List.mem_of_getLast? hq)
    exact hkinds _ hmem _ (List.mem_map_of_mem ht)

lemma EntryPhrase.IsWellFormed.placed {p : EntryPhrase}
    (h : p.IsWellFormed host stops inGroup allowMut) : Role.Placed host p.parts := by
  have htail : Role.Placed host ((.name, p.name) :: p.tail.parts) := by
    have hname : Role.Placed host [(.name, p.name)] := .single h.name
    have hwf := h.tail
    cases htail : p.tail with
    | nothing => exact hname
    | source colon field =>
      rw [htail] at hwf
      have hfield : Role.Placed host [(.name, field)] := .single hwf.2.2
      exact hname.append_sign (hfield.cons trivial (by rw [hwf.2.1]; decide))
    | value colon ts => exact hname.append_signs (colon :: ts)
  have ⟨hmodifier, hlast⟩ : Role.Placed host p.modifier.parts ∧
      ∀ q ∈ p.modifier.parts.getLast?, q.2.kind ∈ TokenKind.introducers := h.modifier.placed
  have hnamed := hmodifier.append htail fun q hq _ _ _ => hlast q hq
  rw [parts]
  cases hmark : p.mark with
  | none => exact hnamed
  | some t => exact hnamed.cons trivial (by rw [(h.mark t hmark).1]; decide)

lemma CommaList.IsWellFormed.placed {α : Type} {ok : α → Prop} {part : α → List (Role × Token)}
    {l : CommaList α} (h : l.IsWellFormed ok) (hpart : ∀ a, ok a → Role.Placed host (part a)) :
    Role.Placed host (l.parts part) := by
  obtain ⟨closed, last⟩ := l
  induction closed with
  | nil =>
    cases last with
    | none => exact .nil
    | some a => exact hpart a (h.items a List.mem_cons_self)
  | cons item closed ih =>
    have hrest : Role.Placed host (parts part ⟨closed, last⟩) := by
      refine ih ⟨fun item hitem => h.comma item (List.mem_cons_of_mem _ hitem), fun a ha => ?_⟩
      exact h.items a (List.mem_cons_of_mem _ ha)
    have hcomma : item.2.kind ∈ TokenKind.introducers := by
      rw [h.comma item List.mem_cons_self]
      decide
    have hparts : parts part ⟨item :: closed, last⟩ =
        part item.1 ++ (.sign, item.2) :: parts part ⟨closed, last⟩ := by
      simp [parts, closedParts]
    rw [hparts]
    exact (hpart item.1 (h.items _ List.mem_cons_self)).append_sign
      (hrest.cons trivial hcomma)

lemma GroupPhrase.IsWellFormed.placed {p : GroupPhrase} (h : p.IsWellFormed host rule) :
    Role.Placed host p.parts :=
  ((h.entries.placed fun _ he => EntryPhrase.IsWellFormed.placed he).append_signs _).cons
    trivial (by rw [h.openBrace]; decide)

lemma ItemPhrase.IsWellFormed.placed {p : ItemPhrase} (h : p.IsWellFormed host rule) :
    Role.Placed host p.parts := by
  cases p with
  | entry p => exact EntryPhrase.IsWellFormed.placed h
  | group p => exact GroupPhrase.IsWellFormed.placed h

lemma TextPhrase.IsWellFormed.placed {p : TextPhrase} {allowBase : Bool}
    (h : p.IsWellFormed host allowBase allowMut) : Role.Placed host p.parts := by
  have hlist : Role.Placed host p.list.parts := by
    have hitems := h.list.items.placed fun _ ha => ItemPhrase.IsWellFormed.placed ha
    rw [ListPhrase.parts]
    cases p.list.base with
    | none => rwa [Option.elim_none, List.append_nil]
    | some b => exact hitems.append_signs (b.1 :: b.2)
  rw [parts]
  cases hbraces : p.braces with
  | none => exact hlist
  | some b =>
    exact (hlist.append_signs [b.2]).cons trivial
      (by rw [(h.braces b hbraces).1]; decide)

end FieldComposition
