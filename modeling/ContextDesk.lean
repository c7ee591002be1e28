import ContextDesk.LogAnalysis.TimezoneCurrent
import ContextDesk.LogAnalysis.TimezoneClear
import ContextDesk.LogAnalysis.TrustedLens
import ContextDesk.Sse
import ContextDesk.Ssrf
import ContextDesk.Permissions
import ContextDesk.LogAnalysis.ChronologyRuns
import ContextDesk.LogAnalysis.EventCountRuns
import ContextDesk.MultiStageBudget
import ContextDesk.VectorIndexReach
import ContextDesk.MemoryIndex
import ContextDesk.MemoryHistory
import ContextDesk.MemoryPurge
import ContextDesk.MemorySync
import ContextDesk.Cases.StoreRuns
import ContextDesk.Cases.Interleaving
import ContextDesk.Cases.LabelLanes
import ContextDesk.Sync.Runs
import ContextDesk.LogAnalysis.LinkedSearchBound
import ContextDesk.PackedIdentities
import ContextDesk.RedactLog
import ContextDesk.LogAnalysis.FrameBounds
import ContextDesk.LogAnalysis.DrainRepeats
import ContextDesk.LogAnalysis.LiteralSearch
import ContextDesk.LogAnalysis.TimelineTotals
import ContextDesk.SqlRo
import ContextDesk.MemoryDedup
import ContextDesk.MemoryRecall
import ContextDesk.ReadonlySql
import ContextDesk.SessionGrant
import ContextDesk.ContextRelevance
import ContextDesk.ContextShuffle
import ContextDesk.FastTriage.NeighborhoodLaws
import ContextDesk.FastTriage.PromptBudget
import ContextDesk.FastTriage.Satisfiable
import ContextDesk.GatewayCostComparison
import ContextDesk.Temporal.Order
import ContextDesk.Cases.CollectionCursor
import ContextDesk.Portable.RemapReport
import ContextDesk.LogAnalysis.LaneScrub
import ContextDesk.LogAnalysis.Exceptions.Completes
import ContextDesk.LogAnalysis.Exceptions.Caps
