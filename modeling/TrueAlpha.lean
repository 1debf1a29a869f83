import TrueAlpha.Backtest.Capital
import TrueAlpha.Backtest.Adjusted
import TrueAlpha.Backtest.SplitRecovery
import TrueAlpha.Contracts.TierPartition
import TrueAlpha.Forest.Identity
import TrueAlpha.Contracts.ConsensusRule
import TrueAlpha.Contracts.PointInTime
import TrueAlpha.Topt.OneValue
import TrueAlpha.Kg.PointInTime
import TrueAlpha.Sources.SharedLimit
import TrueAlpha.Strategy.PegNeutral
import TrueAlpha.Sources.FirstAnswer
import TrueAlpha.Datahub.CaptureBackfill
import TrueAlpha.Datahub.ShownListing
import TrueAlpha.Datahub.PointerRace
import TrueAlpha.Contracts.UsageReview
import TrueAlpha.Contracts.RunnerSelection
import TrueAlpha.Datahub.ReuseFreeze
import TrueAlpha.Contracts.UniverseSchedule
import TrueAlpha.Backtest.WholeSplits
import TrueAlpha.Sources.LandingRace
import TrueAlpha.Contracts.AccessRules
import TrueAlpha.Datahub.DispositionRules
import TrueAlpha.Datahub.TreasuryRace
import TrueAlpha.Contracts.BundleTraces
import TrueAlpha.Factors.FailedOutcomes
import TrueAlpha.Datahub.JumpGuard
import TrueAlpha.Datahub.RepeatedIngest
import TrueAlpha.Datahub.SerializationOrder
import TrueAlpha.Datahub.VintageMask
import TrueAlpha.Sources.QueueTermination
import TrueAlpha.Factors.GrowthMean
import TrueAlpha.Factors.PeriodTexts
import TrueAlpha.Strategy.TagOrder
import TrueAlpha.Strategy.RowOrder
import TrueAlpha.Strategy.CutoffDecisions
import TrueAlpha.Backtest.Benchmark
import TrueAlpha.Sources.FetchKeys
import TrueAlpha.Sources.QuotedPrice
import TrueAlpha.Sources.ModelRetries
import TrueAlpha.Datahub.CanonicalUniverse
import TrueAlpha.Datahub.ScheduleCutoffs
import TrueAlpha.Datahub.TreasuryFile
import TrueAlpha.Factors.WeakestInput
import TrueAlpha.Runtime.PytestShard
import TrueAlpha.Contracts.ExactDecimal
import TrueAlpha.Forest.Numerator
import TrueAlpha.Datahub.BirthNames
import TrueAlpha.Datahub.OracleOutcomes
import TrueAlpha.Datahub.OracleRows
