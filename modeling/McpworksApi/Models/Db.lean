import McpworksApi.Models.Accounts
import McpworksApi.Models.Namespaces
import McpworksApi.Models.Agents
import McpworksApi.Models.Servers
import McpworksApi.Session.Basic

/-! The database: one table per model. -/

namespace McpworksApi.Models

structure Db where
  users : Table User := Table.empty
  accounts : Table Account := Table.empty
  apiKeys : Table ApiKey := Table.empty
  auditLogs : List AuditLog := []
  namespaces : Table Namespace := Table.empty
  shares : Table NamespaceShare := Table.empty
  services : Table NamespaceService := Table.empty
  functions : Table Function := Table.empty
  versions : Table FunctionVersion := Table.empty
  agents : Table Agent := Table.empty
  replicas : Table AgentReplica := Table.empty
  channels : Table AgentChannel := Table.empty
  agentStates : Table AgentState := Table.empty
  webhooks : Table AgentWebhook := Table.empty
  schedules : Table AgentSchedule := Table.empty
  scheduledJobs : Table ScheduledJob := Table.empty
  scheduleFires : Table ScheduleFire := Table.empty
  agentRuns : Table AgentRun := Table.empty
  procedures : Table Procedure := Table.empty
  procedureVersions : Table ProcedureVersion := Table.empty
  procedureExecutions : Table ProcedureExecution := Table.empty
  mcpServers : Table NamespaceMcpServer := Table.empty
  apiServers : Table NamespaceApiServer := Table.empty
  apiEndpoints : Table ApiEndpoint := Table.empty

abbrev DbSession := Session Db ApiError

namespace Db

def addAudit (log : AuditLog) : DbSession Unit :=
  Session.write fun db => { db with auditLogs := db.auditLogs ++ [log] }

def accountOf (db : Db) (userId : ℕ) : Option Account := db.accounts.rows.find? (·.userId = userId)

/-- A scheduled job that refers to a deleted replica loses the reference, as its foreign keys say. -/
def deleteReplicas (db : Db) (p : AgentReplica → Bool) : Db :=
  let gone := (db.replicas.select p).map (·.id)
  { db with
    replicas := db.replicas.deleteWhere p
    scheduledJobs := db.scheduledJobs.updateWhere (fun _ => true) fun j =>
      { j with
        replicaId := j.replicaId.filter (· ∉ gone)
        claimedBy := j.claimedBy.filter (· ∉ gone) } }

end Db

end McpworksApi.Models
