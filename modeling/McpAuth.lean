import McpAuth.Library.PyText
import McpAuth.Library.StepUp
import McpAuth.Library.JsonText
import McpAuth.Domain.ScopeClaims
import McpAuth.Adapters.Principal
import McpAuth.Adapters.ProgressiveAuth
import McpAuth.Adapters.ToolMiddleware
import McpAuth.Entrypoints.RequestPath
import McpAuth.Adapters.VerifiedClaims
import McpAuth.Library.IpAddress
import McpAuth.Library.UrlSplit
import McpAuth.Adapters.OidcNetworkPolicy
import McpAuth.Entrypoints.Settings
import McpAuth.Entrypoints.Server
import McpAuth.Adapters.OidcDocuments
import McpAuth.Library.Cooperative
import McpAuth.Library.TtlCache
import McpAuth.Adapters.OidcRuntime
import McpAuth.Adapters.OidcDiscovery
import McpAuth.Adapters.JwksKeyResolver
import McpAuth.Adapters.TokenVerifier
import McpAuth.Adapters.RefreshCooldown
import McpAuth.Adapters.TrustChain
import McpAuth.Entrypoints.TokenVerification
import McpAuth.Library.Ledger
import McpAuth.Adapters.HttpTransport
import McpAuth.Entrypoints.StreamableHttp
import McpAuth.Library.Monitor
import McpAuth.Library.RefreshTimeline
import McpAuth.Adapters.OidcTimeline
import McpAuth.Library.Progress
import McpAuth.Library.Chronicle
import McpAuth.Adapters.KeyRotation
import McpAuth.Adapters.OidcFootprint
import McpAuth.Adapters.KeyFreshness
import McpAuth.Adapters.OidcCaches
import McpAuth.Entrypoints.ScopeQualification
import McpAuth.Entrypoints.AuditIndependence
import McpAuth.Library.Visits
import McpAuth.Adapters.PinnedTransport
import McpAuth.Library.Budget
import McpAuth.Adapters.PinnedRequests
import McpAuth.Adapters.ResponseLimit
import McpAuth.Adapters.ResponseReplacement
import McpAuth.Adapters.ToolCatalog
import McpAuth.Adapters.EnvelopeRouting
import McpAuth.Adapters.HeaderEncoding
import McpAuth.Adapters.KeySelection
import McpAuth.Adapters.StrictJson
import McpAuth.Library.PyDate
import McpAuth.Scripts.VulnerabilityPolicy
import McpAuth.Scripts.VulnerabilityGate
import McpAuth.Library.TextRows
import McpAuth.Scripts.SupplyChain
import McpAuth.Scripts.ActionReferences
import McpAuth.Library.YamlScalar
import McpAuth.Scripts.CheckoutSteps
import McpAuth.Scripts.PermissionBlocks
import McpAuth.Scripts.WorkflowPermissions
import McpAuth.Entrypoints.LogRedaction
import McpAuth.Entrypoints.RedactionScan
import McpAuth.Scripts.RegistryArguments
import McpAuth.Library.RelativePath
import McpAuth.Scripts.ReleaseArtifacts
import McpAuth.Scripts.ArchiveBoundary
import McpAuth.Library.DottedName
import McpAuth.Library.TreeWalk
import McpAuth.Scripts.ArchitectureBoundary
import McpAuth.Scripts.BoundaryImports
import McpAuth.Adapters.ConnectionPools
import McpAuth.Entrypoints.RedactionSites
import McpAuth.Entrypoints.Startup
import McpAuth.Entrypoints.RedactionFixed
import McpAuth.Library.AtomicBlocks
import McpAuth.Adapters.PoolClosing
import McpAuth.Library.JsonValue
import McpAuth.Scripts.SecurityEvidence
import McpAuth.Library.Sha256
import McpAuth.Scripts.ReleaseBuilds
import McpAuth.Library.JsonReader
import McpAuth.Scripts.ImageEvidence
import McpAuth.Scripts.PublicationInputs
import McpAuth.Scripts.ReleasePublication
import McpAuth.Scripts.ReleasePipeline
