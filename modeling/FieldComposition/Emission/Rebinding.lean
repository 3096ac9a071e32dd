import FieldComposition.Emission.Record

/-!
# Rebindings

Every name is bound again, to its own modified value. Only the rust dialect knows of mutable
bindings.
-/

namespace FieldComposition

namespace Python

/-- The value that a name is bound to again. A conversion has no target here and keeps it. -/
def reboundValue (e : Entry) : Term :=
  .ofModifier e.modifier (.host e.name) none

/-- Whether a rebinding calls into the runtime module: its modifier does where there is a target,
and its value is not the name alone. -/
def rebindingNeedsRuntime (runtimeName : String) (e : Entry) : Bool :=
  needsRuntime e.modifier && (reboundValue e).render runtimeName != e.name

/-- One line for every name. -/
def rebinding (settings : Settings) (t : FieldTable) : Script :=
  let entries := t.claims.map (·.entry)
  { imports := entries.flatMap fun e =>
      if rebindingNeedsRuntime settings.runtimeAlias e then [.runtime] else [],
    blocks := [entries.map fun e => .assign e.name (.term (reboundValue e))] }

end Python

namespace Rust

def rebinding (t : FieldTable) : Draft where
  statements := [Code.stacked <| t.claims.map fun c =>
    letBinding (if c.entry.mutable then "mut " ++ c.entry.name else c.entry.name)
      (Term.ofModifier c.entry.modifier (.host c.entry.name)).code]

end Rust

end FieldComposition
