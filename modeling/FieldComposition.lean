import FieldComposition.Evaluation
import FieldComposition.Main
import FieldComposition.Proofs.ExpansionErrors
import FieldComposition.Proofs.RecordRun
import FieldComposition.Proofs.WellFormedInvocation
import FieldComposition.Proofs.BracedFieldList
import FieldComposition.Proofs.MovedExpressions
import FieldComposition.Proofs.MoreNames
import FieldComposition.Proofs.NestedText
import FieldComposition.Proofs.CheckedFieldList
import FieldComposition.Proofs.SeparatedArguments
import FieldComposition.Proofs.ConcatenatedFieldLists
import FieldComposition.Proofs.PrintedFieldLists
import FieldComposition.Proofs.GrammarWords
import FieldComposition.Proofs.SpacedTokens
import FieldComposition.Proofs.IdentifierReading
import FieldComposition.Proofs.StringEnds
import FieldComposition.Proofs.SourceNames
import FieldComposition.Proofs.AssertedNames
import FieldComposition.Proofs.CapturedNames
import FieldComposition.Proofs.AtomicValues
import FieldComposition.Proofs.GuardedOperands
import FieldComposition.Proofs.ImportedModules
import FieldComposition.Proofs.HolderFields
import FieldComposition.Proofs.BindingLines
import FieldComposition.Proofs.HolderReceiver
import FieldComposition.Proofs.ArgumentTypes
import FieldComposition.Proofs.CosmeticIndent
import FieldComposition.Proofs.RecordUpdate
import FieldComposition.Proofs.FieldReport
import FieldComposition.Proofs.MatchingBrackets
import FieldComposition.Proofs.ConfigurationFaults
import FieldComposition.Proofs.NearestConfiguration
