import HybridInference.Admin.RefreshingResult
import HybridInference.Accounts.BrowserSessions
import HybridInference.Accounts.OneTimeLinks
import HybridInference.Admission.UserConcurrency
import HybridInference.Limiter.Bucket
import HybridInference.Limiter.EngineGate
import HybridInference.Batch.ClaimRuns
import HybridInference.Health.Probe
import HybridInference.Health.Paging
import HybridInference.Spend.Budget
import HybridInference.Spend.Handed
import HybridInference.Routing.RouterRegistry
import HybridInference.Routing.Balance
import HybridInference.RouteWise.ProbeGate
import HybridInference.RouteWise.ProbeSamples
import HybridInference.RouteWise.Quota
import HybridInference.Alerts.HistoryWriter
import HybridInference.Routing.FeedbackAttribution
import HybridInference.Routing.RouteWeights
import HybridInference.Responses.Turn
import HybridInference.Anthropic.Cutting
import HybridInference.ClientIp.Forgery
import HybridInference.Phone.SingleUse
import HybridInference.ApiKeys.SharedQuota
import HybridInference.Batch.OneBatchPerKey
import HybridInference.Login.Throttling
import HybridInference.Anthropic.InlineSystemLossless
import HybridInference.Erasure.LogErased
import HybridInference.Webhooks.OutboxRuns
import HybridInference.Live.Publication
import HybridInference.Chat.Serializer
import HybridInference.Tokens.Charged
import HybridInference.Processors.ThinkBlock
import HybridInference.Processors.ToolXmlReplies
import HybridInference.RouteWise.PendingPrefixRuns
import HybridInference.Prefill.Selection
import HybridInference.Logs.PayloadRecovery
import HybridInference.Prefill.PromptAnchor
import HybridInference.Routing.SurfacedError
import HybridInference.AuthFailures.Windows
import HybridInference.AutoMode.Thinking
import HybridInference.Keys.EnvKeys
import HybridInference.Alerts.SendAdmission
import HybridInference.Batch.MultipartParts
import HybridInference.RouteWise.Latency
import HybridInference.Rag.Coverage
import HybridInference.Anthropic.ToolArguments
import HybridInference.Upstream.StreamFraming
