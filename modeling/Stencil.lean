import Stencil.Main
import Stencil.Proofs.NumeralDigits
import Stencil.Proofs.TagBalance
import Stencil.Proofs.TreeTokens
import Stencil.Proofs.CompileFailures
import Stencil.Proofs.RenderConcatenation
import Stencil.Proofs.PartialInlining
import Stencil.Proofs.InclusionTrails
import Stencil.Proofs.PartialExpansion
import Stencil.Proofs.RenderSafety
import Stencil.Proofs.DiagnosticPlaces
import Stencil.Proofs.SourceTiling
import Stencil.Proofs.MentionedPaths
import Stencil.Proofs.EagerReading
import Stencil.Proofs.SessionProgress
import Stencil.Proofs.StreamDraws
import Stencil.Proofs.CheckAgreement
import Stencil.Proofs.RunEffects
import Stencil.Proofs.ConditionGrammar
import Stencil.Proofs.ConditionTruth
import Stencil.Proofs.BindingScopes
import Stencil.Proofs.IntegerRounding
import Stencil.Proofs.LiteralComparison
import Stencil.Proofs.PathComposition
import Stencil.Proofs.ExistenceTests
import Stencil.Proofs.ValueEquality
import Stencil.Descent
import Stencil.Proofs.ParserReuse
import Stencil.Proofs.Lookahead
import Stencil.Proofs.ReadingProgress
import Stencil.Proofs.NodeCounts
import Stencil.Proofs.ReachedPartials
import Stencil.Proofs.ScanOperations
import Stencil.Proofs.PartialSupplies
import Stencil.Proofs.FailureSources
