import OdooSemantic.Billing.ClaimSafety
import OdooSemantic.Billing.Downgrades
import OdooSemantic.Billing.EventTimes
import OdooSemantic.Billing.PaidAccess
import OdooSemantic.Billing.Redelivery
import OdooSemantic.Indexer.Attention
import OdooSemantic.Indexer.ChangedModules
import OdooSemantic.Indexer.Dependents
import OdooSemantic.Indexer.EmbeddingWrites
import OdooSemantic.Indexer.Era1Scans
import OdooSemantic.Indexer.KeptChunks
import OdooSemantic.Indexer.Renames
import OdooSemantic.Indexer.Resolver
import OdooSemantic.Indexer.SlidingChunks
import OdooSemantic.Ledger.FirstIndex
import OdooSemantic.Ledger.FullParses
import OdooSemantic.Ledger.Invariant
import OdooSemantic.Lifecycle.HeadTree
import OdooSemantic.Lifecycle.UntrackedFiles
import OdooSemantic.Mcp.FieldFilters
import OdooSemantic.Mcp.FieldPrecedence
import OdooSemantic.Mcp.InstallReports
import OdooSemantic.Mcp.KeyInvalidation
import OdooSemantic.Mcp.PinReads
import OdooSemantic.Mcp.Quotas
import OdooSemantic.Mcp.Refs
import OdooSemantic.Mcp.ResourceCache
import OdooSemantic.Mcp.ResourceKeys
import OdooSemantic.Mcp.ScopeEpoch
import OdooSemantic.Neo4j.Confidentiality
import OdooSemantic.Neo4j.CoreLifecycle
import OdooSemantic.Neo4j.DepEdges
import OdooSemantic.Neo4j.OwlParents
import OdooSemantic.Neo4j.PostPass
import OdooSemantic.Neo4j.Relink
import OdooSemantic.Neo4j.TestGc
import OdooSemantic.Prune.ClassIdentity
import OdooSemantic.Prune.ConstantRuns
import OdooSemantic.Reconcile.Evidence
import OdooSemantic.Reconcile.Passes
import OdooSemantic.Reconcile.SharedVerdicts
import OdooSemantic.Registry.Ancestry
import OdooSemantic.Registry.JobReports
import OdooSemantic.Registry.ReadScope
import OdooSemantic.WebUi.DefaultTenant
import OdooSemantic.WebUi.IpRateLimits
import OdooSemantic.WebUi.LoginLimits
import OdooSemantic.WebUi.OneTimeCodes
import OdooSemantic.WebUi.Revocation
import OdooSemantic.WebUi.Sessions
import OdooSemantic.WebUi.Takeover
import OdooSemantic.WebUi.TokenRedemption
import OdooSemantic.WebUi.Unrestricted
