import LlmRouter.Gateway.Execution
import LlmRouter.Gateway.Recovery
import LlmRouter.Gateway.Agreement
import LlmRouter.Gateway.SseStandard
import LlmRouter.Cache.Middleware
import LlmRouter.Cache.Replay
import LlmRouter.RateLimit.SlidingWindow
import LlmRouter.RateLimit.RetryAfter
import LlmRouter.RateLimit.Tenants
import LlmRouter.Budget.Coherence
import LlmRouter.Budget.Rollover
import LlmRouter.Budget.Ledger
import LlmRouter.Experiment.Lifecycle
import LlmRouter.Experiment.Significance
import LlmRouter.Experiment.Split
import LlmRouter.Auth.KeyAdmin
import LlmRouter.Tenant.Settings
import LlmRouter.Routing.Weights
import LlmRouter.Provider.Sampling
import LlmRouter.Provider.SelfHosted
import LlmRouter.Provider.Metering
import LlmRouter.Guardrail.Coverage
import LlmRouter.Guardrail.Detection
import LlmRouter.Mcp.ReadLoop
import LlmRouter.Telemetry.LogWriter
import LlmRouter.Audit.Logger
import LlmRouter.Mcp.WebSocket
import LlmRouter.Mcp.Health
import LlmRouter.Mcp.CacheKeys
import LlmRouter.Mcp.Registry
import LlmRouter.Mcp.SseLoop
import LlmRouter.Experiment.Costs
import LlmRouter.Guardrail.Masking
import LlmRouter.Gateway.Backoff
import LlmRouter.Telemetry.ProviderTracker
import LlmRouter.Telemetry.DailyUsage
import LlmRouter.Audit.Entries
import LlmRouter.Budget.Prices
import LlmRouter.Provider.Cumulative
import LlmRouter.Prompt.Render
import LlmRouter.Cache.Store
import LlmRouter.Alerting.Dedup
import LlmRouter.Gateway.Attempts
import LlmRouter.MlRouter.Ranking
import LlmRouter.MlRouter.Classifier
import LlmRouter.Billing.Scheduler
import LlmRouter.Auth.LastUsed
import LlmRouter.Auth.Login
import LlmRouter.Provider.JsonEnd
import LlmRouter.Provider.Signing
