import OmpLazy.State.Replay
import OmpLazy.State.Serializable
import OmpLazy.State.RepoLock
import OmpLazy.State.Lifecycle
import OmpLazy.State.TerminalRuns
import OmpLazy.State.MigrationAtomicity
import OmpLazy.State.ReadableMigration
import OmpLazy.State.ProductRoots
import OmpLazy.State.EarnedProgress
import OmpLazy.State.IndexCoherence
import OmpLazy.State.MigrationRepair
import OmpLazy.State.CompletionConfluence
import OmpLazy.State.RejectionBudget
import OmpLazy.Gates.GateReplays
import OmpLazy.Gates.OwnedTargets
import OmpLazy.Gates.ProvenCapability
import OmpLazy.Gates.MeteredRetrieval
import OmpLazy.Continuation.AcceptedDecisions
import OmpLazy.Continuation.NoProgressBound
import OmpLazy.Continuation.CoordinatorRest
import OmpLazy.Commands.CommandRetries
import OmpLazy.Continuation.IdleBudget
import OmpLazy.Contracts.AcceptanceRuns
import OmpLazy.Contracts.RetryCap
import OmpLazy.Activation.TrustedActivations
import OmpLazy.Activation.DirectiveRecords
import OmpLazy.Workflows.ScaffoldPlan
import OmpLazy.Workflows.NextTaskPacket
import OmpLazy.Workflows.TeamBinding
import OmpLazy.Workflows.TeamLifecycle
import OmpLazy.Commands.TeamReservations
import OmpLazy.Contracts.RecompiledPackets
import OmpLazy.Context.RuleBudgets
import OmpLazy.Context.CatalogOrder
import OmpLazy.Context.RuleRoundTrip
import OmpLazy.Workflows.RiskTiers
import OmpLazy.Workflows.ModelChains
import OmpLazy.Workflows.TeamOwnership
import OmpLazy.Activation.BareTriggers
import OmpLazy.Commands.SettlementPaths
import OmpLazy.Context.GlobMatching
import OmpLazy.Commands.CommandParser
import OmpLazy.Context.SettledDescriptions
import OmpLazy.State.Paths
import OmpLazy.Observers.CallAccounting
import OmpLazy.Observers.ContextFrame
import OmpLazy.Observers.StatusLinePublisher
import OmpLazy.Workflows.PlanIdentity
import OmpLazy.Contracts.ReceiptSoundness
import OmpLazy.HarnessEval.SyntheticBundle
import OmpLazy.Commands.CommandAdmission
import OmpLazy.Commands.CommandGrammar
import OmpLazy.Commands.CommandTenures
import OmpLazy.Contracts.ArtifactContainment
import OmpLazy.Contracts.EvidenceLaws
import OmpLazy.Gates.ToolCallDispatcher
