import Drust.Storage.FilePolicyAgreement
import Drust.Rpc.TemplateBinding
import Drust.Rpc.WriteAtomicity
import Drust.Rpc.AuditCapture
import Drust.Storage.SchemaCache
import Drust.Tenant.AuthCache
import Drust.Tenant.UploadIntegrity
import Drust.Tenant.RoomEviction
import Drust.Tenant.WebhookRevocation
import Drust.Cron.SchedulerGates
import Drust.Cron.Index
import Drust.Storage.Pool
import Drust.Storage.HistoryReplay
import Drust.Storage.DescribeFaults
import Drust.Mcp.RowGates
import Drust.Mcp.FieldEntries
import Drust.Tenant.StreamEviction
import Drust.Tenant.OwnRows
import Drust.Rpc.GuardCauses
import Drust.Tenant.PolicyRoutes
import Drust.Storage.StoredPolicies
import Drust.Rpc.AnonReach
import Drust.Mgmt.TrashRetention
import Drust.Mgmt.DeletedTenant
import Drust.Tenant.PublishRate
import Drust.Functions.MemoryBudget
import Drust.Functions.ModuleCache
import Drust.Tenant.EgressOrigins
import Drust.Tenant.UploadSessions
import Drust.Mcp.ConstraintCheck
import Drust.Mcp.ColumnText
import Drust.Storage.SignedUrl
import Drust.Query.PolicyKeys
import Drust.Query.Placeholders
import Drust.Query.FtsProbes
import Drust.Rpc.TemplateFts
import Drust.Functions.FunctionQueue
import Drust.Mcp.FtsMirror
import Drust.Mgmt.TokenRotation
import Drust.Mgmt.TeamOwners
import Drust.Safety.RateLimit
import Drust.Safety.RateLimitIp
import Drust.Safety.AuditWriter
import Drust.Lib.RequestQueue
import Drust.Mgmt.MemberCap
import Drust.Tenant.AccountClaims
import Drust.Tenant.OauthState
