import McpworksApi.Auth.Tokens
import McpworksApi.Auth.PinWindow
import McpworksApi.Agents.PublicChat
import McpworksApi.Run.Registry
import McpworksApi.Run.SandboxBackend
import McpworksApi.Services.ShareHistory
import McpworksApi.Agents.StepChaining
import McpworksApi.Run.DirectCalls
import McpworksApi.Services.Recreation
import McpworksApi.Agents.Quotas
import McpworksApi.Agents.FailurePolicy
import McpworksApi.Agents.ClaimedOnce
import McpworksApi.Create.LockLaw
import McpworksApi.Create.Requirements
import McpworksApi.Agents.Retention
import McpworksApi.Agents.Cloning
import McpworksApi.Run.CallBudget
import McpworksApi.Agents.StateQuota
import McpworksApi.Scratchpad.Confinement
import McpworksApi.Services.AllowlistChanges
import McpworksApi.Limits.RateLimiter
import McpworksApi.Billing.Concurrency
import McpworksApi.Billing.MonthlyQuota
import McpworksApi.OpenApi.Refresh
import McpworksApi.Oauth.Authorized
import McpworksApi.Oauth.RefreshRaces
import McpworksApi.Run.ConnectionPool
import McpworksApi.Run.Ssrf
import McpworksApi.Agents.ProcedureLimits
import McpworksApi.Billing.LostEvents
import McpworksApi.Agents.OutcomeReading
import McpworksApi.Billing.Subscriptions
import McpworksApi.Agents.TurnRaces
import McpworksApi.Agents.Canary
import McpworksApi.Agents.ProcedureEndings
import McpworksApi.Access.Decisions
import McpworksApi.Run.ResponseLaws
import McpworksApi.OpenApi.Pointers
import McpworksApi.Agents.PoolRouting
import McpworksApi.Run.ApiToolNames
import McpworksApi.Services.JsonPathLaw
import McpworksApi.Sandbox.PathBlocking
import McpworksApi.Scratchpad.Replacement
import McpworksApi.Sandbox.RunnerOutput
import McpworksApi.Run.FallbackPolicy
