import FeatureToggles.LogContext
import FeatureToggles.Metrics.Sample
import FeatureToggles.Proofs.ParsedRules
import FeatureToggles.Proofs.RuleStep
import FeatureToggles.Proofs.StoreHistory
import FeatureToggles.Resolver
import FeatureToggles.Service.Respond
import FeatureToggles.Proofs.LastWins
import FeatureToggles.Proofs.Isolation
import FeatureToggles.Proofs.StoredForm
import FeatureToggles.Proofs.Agreement
import FeatureToggles.Proofs.RuleSources
import FeatureToggles.Proofs.ResolveRequest
import FeatureToggles.Proofs.Validation
import FeatureToggles.Proofs.DatabaseListing
import FeatureToggles.Proofs.ResolutionCounts
import FeatureToggles.Proofs.RequestCounts
import FeatureToggles.Proofs.StandardText
import FeatureToggles.Proofs.FiniteFloats
import FeatureToggles.Proofs.PoolLifecycle
import FeatureToggles.Proofs.FirstDefect
import FeatureToggles.Proofs.Readers
import FeatureToggles.Proofs.Simulations
import FeatureToggles.Proofs.Stopping
import FeatureToggles.Proofs.Positions
import FeatureToggles.Proofs.SyntaxErrors
import FeatureToggles.Proofs.Lexing
import FeatureToggles.Proofs.Writing
import FeatureToggles.Proofs.LogicalRules
import FeatureToggles.Proofs.TokenShapes
import FeatureToggles.Proofs.Tiling
import FeatureToggles.Proofs.MovedTokens
import FeatureToggles.Proofs.SeparatedTexts
import FeatureToggles.Proofs.AbsentNames
import FeatureToggles.Proofs.Comparisons
import FeatureToggles.Proofs.EncodedJson
import FeatureToggles.Proofs.FoldedLevels
import FeatureToggles.Proofs.Walks
import FeatureToggles.Proofs.UuidNumerals
import FeatureToggles.Proofs.UuidSpellings
import FeatureToggles.Proofs.AccountIds
import FeatureToggles.Proofs.Schema
