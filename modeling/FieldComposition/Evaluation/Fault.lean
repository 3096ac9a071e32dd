import FieldComposition.Evaluation.HostExpression
import FieldComposition.FieldChecks
import FieldComposition.RecordClass.Declaration

/-!
# Faults of an evaluation
-/

namespace FieldComposition

/-- Why an evaluation fails. -/
inductive EvaluationFault where
  /-- The code cannot be read, so that none of it is run. -/
  | code (fault : CodeFault)
  | unbound (name : String)
  | noMember
  /-- A call of something that is no function, or with arguments that it does not take. -/
  | badCall
  /-- A text is no number. -/
  | notANumber
  /-- The entries of a dictionary do not come in pairs. -/
  | notAPair
  /-- An integer is too large for a real. -/
  | tooLarge
  | invalid (issues : List ValueIssue)
  | declaration (fault : DeclarationFault)
  | construction (fault : ConstructionFault)
  | report (fault : ReportFault)
  deriving DecidableEq, Repr

end FieldComposition
