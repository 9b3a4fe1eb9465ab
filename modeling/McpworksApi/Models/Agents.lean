import McpworksApi.Models.Errors
import McpworksApi.Py.Json
import McpworksApi.Store.Table

/-! Agents with their access rules, replicas, channels, webhooks, schedules, jobs, runs and state
entries, and the procedures of a namespace. -/

namespace McpworksApi.Models

inductive RuleType
  | allowServices
  | denyServices
  | allowFunctions
  | denyFunctions
  | allowKeys
  | denyKeys
  deriving DecidableEq, Repr

structure AccessRule where
  id : Option String := none
  type : Option RuleType
  patterns : List String := []
  minTrustScore : Option ℤ := none
  deriving DecidableEq, Repr

structure AccessRules where
  functionRules : List AccessRule := []
  stateRules : List AccessRule := []
  deriving DecidableEq, Repr

inductive AgentStatus
  | creating
  | running
  | degraded
  | stopped
  | error
  | destroying
  deriving DecidableEq, Repr

inductive ToolTier
  | executeOnly
  | standard
  | builder
  | admin
  deriving DecidableEq, Repr

structure LimitOverrides where
  maxIterations : Option ℤ := none
  maxAiTokens : Option ℤ := none
  maxExecutionSeconds : Option ℤ := none
  maxFunctionsCalled : Option ℤ := none
  deriving DecidableEq, Repr

structure Agent where
  id : ℕ
  accountId : ℕ
  namespaceId : ℕ
  name : String
  displayName : Option String := none
  containerId : Option String := none
  status : AgentStatus := .creating
  aiEngine : Option String := none
  aiModel : Option String := none
  aiApiKey : Option String := none
  systemPrompt : Option String := none
  memoryLimitMb : ℕ := 256
  cpuLimit : ℚ := 1 / 4
  enabled : Bool := true
  toolTier : ToolTier := .standard
  scheduledToolTier : ToolTier := .executeOnly
  accessRules : Option AccessRules := none
  orchestrationLimits : LimitOverrides := {}
  scratchpadToken : Option String := none
  scratchpadSizeBytes : ℕ := 0
  scratchpadUpdatedAt : Option Time := none
  scratchpadExpiresAt : Option Time := none
  chatToken : Option String := none
  autoChannel : Option String := none
  apiServerNames : List String := []
  heartbeatInterval : Option ℤ := none
  heartbeatEnabled : Bool := false
  heartbeatNextAt : Option Time := none
  clonedFromId : Option ℕ := none
  targetReplicas : ℤ := 1
  trustScore : ℤ := 500
  deriving DecidableEq, Repr

instance : Row Agent := ⟨Agent.id⟩

inductive ReplicaStatus
  | creating
  | running
  | stopped
  | error
  deriving DecidableEq, Repr

structure AgentReplica where
  id : ℕ
  agentId : ℕ
  replicaName : String
  containerId : Option String := none
  status : ReplicaStatus := .creating
  createdAt : Time
  deriving DecidableEq, Repr

instance : Row AgentReplica := ⟨AgentReplica.id⟩

structure AgentChannel where
  id : ℕ
  agentId : ℕ
  channelType : String
  config : String
  enabled : Bool := true
  deriving DecidableEq, Repr

instance : Row AgentChannel := ⟨AgentChannel.id⟩

inductive OrchestrationMode
  | direct
  | reasonFirst
  | runThenReason
  | procedure
  deriving DecidableEq, Repr

structure AgentWebhook where
  id : ℕ
  agentId : ℕ
  path : String
  handlerFunctionName : String
  secretHash : Option String := none
  orchestrationMode : OrchestrationMode := .direct
  procedureName : Option String := none
  enabled : Bool := true
  deriving DecidableEq, Repr

instance : Row AgentWebhook := ⟨AgentWebhook.id⟩

inductive ScheduleMode
  | single
  | cluster
  deriving DecidableEq, Repr

structure AgentSchedule where
  id : ℕ
  agentId : ℕ
  functionName : String
  cronExpression : String
  timezone : String := "UTC"
  failurePolicy : Py.Json
  enabled : Bool := true
  mode : ScheduleMode := .single
  orchestrationMode : OrchestrationMode := .direct
  procedureName : Option String := none
  consecutiveFailures : ℕ := 0
  lastRunAt : Option Time := none
  nextRunAt : Option Time := none

instance : Row AgentSchedule := ⟨AgentSchedule.id⟩

inductive JobStatus
  | pending
  | claimed
  | running
  | complete
  | failed
  deriving DecidableEq, Repr

structure ScheduledJob where
  id : ℕ
  agentId : ℕ
  scheduleId : ℕ
  replicaId : Option ℕ := none
  fireTime : Time
  status : JobStatus := .pending
  claimedBy : Option ℕ := none
  claimedAt : Option Time := none
  completedAt : Option Time := none
  error : Option String := none
  createdAt : Time
  deriving DecidableEq, Repr

instance : Row ScheduledJob := ⟨ScheduledJob.id⟩

inductive FireStatus
  | started
  | completed
  | error
  | skipped
  deriving DecidableEq, Repr

structure ScheduleFire where
  id : ℕ
  scheduleId : ℕ
  agentId : ℕ
  status : FireStatus
  agentRunId : Option ℕ := none
  errorDetail : Option String := none
  deriving DecidableEq, Repr

instance : Row ScheduleFire := ⟨ScheduleFire.id⟩

inductive RunStatus
  | running
  | completed
  | failed
  | noAction
  deriving DecidableEq, Repr

structure AgentRun where
  id : ℕ
  agentId : ℕ
  triggerType : String
  triggerDetail : Option String := none
  functionName : Option String := none
  status : RunStatus := .running
  error : Option String := none
  resultSummary : Option String := none
  deriving DecidableEq, Repr

instance : Row AgentRun := ⟨AgentRun.id⟩

structure AgentState where
  id : ℕ
  agentId : ℕ
  key : String
  value : Py.Json
  sizeBytes : ℕ

instance : Row AgentState := ⟨AgentState.id⟩

inductive FailurePolicy
  | required
  | allowed
  | skip
  deriving DecidableEq, Repr

def defaultMaxRetries : Fin 6 := 1

structure ProcedureStep where
  stepNumber : ℕ
  name : String
  functionRef : String
  instructions : String := ""
  failurePolicy : FailurePolicy := .required
  maxRetries : Fin 6 := defaultMaxRetries
  requiredFields : List String := []
  inputMapping : Option (List (String × String)) := none
  outputMapping : Option (List (String × String)) := none

structure Procedure where
  id : ℕ
  namespaceId : ℕ
  serviceId : ℕ
  name : String
  description : Option String := none
  activeVersion : ℕ := 1
  isDeleted : Bool := false
  deriving DecidableEq, Repr

instance : Row Procedure := ⟨Procedure.id⟩

structure ProcedureVersion where
  id : ℕ
  procedureId : ℕ
  version : ℕ := 1
  steps : List ProcedureStep
  createdBy : Option String := none

instance : Row ProcedureVersion := ⟨ProcedureVersion.id⟩

structure AttemptRecord where
  attempt : ℕ
  success : Bool := false
  error : Option String := none
  toolInput : Option Py.Args := none

structure StepResult where
  stepNumber : ℕ
  name : String
  status : String
  functionCalled : Option String := none
  result : Py.Json := .null
  error : Option String := none
  attemptCount : ℕ := 0
  attempts : List AttemptRecord := []

structure ProcedureExecution where
  id : ℕ
  procedureId : ℕ
  procedureVersion : ℕ
  agentId : Option ℕ := none
  triggerType : String
  status : RunStatus := .running
  currentStep : ℕ := 1
  stepResults : List StepResult := []
  inputContext : Option Py.Json := none
  completedAt : Option Time := none
  error : Option String := none

instance : Row ProcedureExecution := ⟨ProcedureExecution.id⟩

/-- A row of the audit trail of a run (`AgentToolCall`); the input is JSON text. -/
structure ToolCall where
  toolName : String
  toolInput : String
  resultPreview : String
  deriving DecidableEq, Repr

/-- `OrchestrationResult`, and the tool calls that are recorded with it. -/
structure Orchestration where
  success : Bool
  finalText : Option String := none
  functionsCalled : List String := []
  iterations : ℕ := 0
  error : Option String := none
  runId : Option ℕ := none
  toolCalls : List ToolCall := []
  deriving DecidableEq, Repr

end McpworksApi.Models
