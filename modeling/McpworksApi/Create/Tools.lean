import McpworksApi.Access.ToolPermissions

/-! The management tools of `CreateMCPHandler`: the entries of its handler table with the scope
each requires. -/

namespace McpworksApi.Create

inductive Tool
  | makeNamespace
  | listNamespaces
  | makeService
  | listServices
  | deleteService
  | makeFunction
  | updateFunction
  | deleteFunction
  | listFunctions
  | describeFunction
  | listPackages
  | listTemplates
  | describeTemplate
  | makeAgent
  | listAgents
  | describeAgent
  | scaleAgent
  | startAgent
  | stopAgent
  | destroyAgent
  | addSchedule
  | removeSchedule
  | listSchedules
  | addWebhook
  | removeWebhook
  | listWebhooks
  | setAgentState
  | getAgentState
  | deleteAgentState
  | listAgentStateKeys
  | configureAgentAi
  | removeAgentAi
  | configureMcpServers
  | configureOrchestrationLimits
  | configureHeartbeat
  | chatWithAgent
  | addChannel
  | removeChannel
  | cloneAgent
  | makeProcedure
  | updateProcedure
  | deleteProcedure
  | listProcedures
  | describeProcedure
  | runProcedure
  | listProcedureExecutions
  | describeProcedureExecution
  | lockFunction
  | unlockFunction
  | publishView
  | getViewUrl
  | clearView
  | configureChatToken
  | configureGitRemote
  | removeGitRemote
  | exportNamespace
  | exportService
  | importNamespace
  | importService
  | addMcpServer
  | removeMcpServer
  | listMcpServers
  | describeMcpServer
  | refreshMcpServer
  | updateMcpServer
  | setMcpServerSetting
  | setMcpServerEnv
  | removeMcpServerEnv
  | configureAgentMcp
  | addMcpServerRule
  | removeMcpServerRule
  | listMcpServerRules
  | setMcpServerToolTrust
  | getMcpServerStats
  | getTokenSavingsReport
  | suggestOptimizations
  | getFunctionMcpStats
  | configureAgentAccess
  | listAgentAccessRules
  | removeAgentAccessRule
  | listExecutions
  | describeExecution
  | addSecurityScanner
  | listSecurityScanners
  | updateSecurityScanner
  | removeSecurityScanner
  | configureTelemetryWebhook
  | configureDiscovery
  | configureCache
  | listOrchestrationRuns
  | describeOrchestrationRun
  | listScheduleFires
  | addApiServer
  | refreshApiEndpoints
  | listApiServers
  | describeApiServer
  | listEndpoints
  | addManualEndpoint
  | enableEndpoint
  | disableEndpoint
  | removeApiServer
  | updateApiSettings
  | setApiCredentials
  | publishEndpoint
  | unpublishEndpoint
  | configureAgentApiAccess
  deriving DecidableEq, Repr

namespace Tool

def name : Tool → String
  | makeNamespace => "make_namespace"
  | listNamespaces => "list_namespaces"
  | makeService => "make_service"
  | listServices => "list_services"
  | deleteService => "delete_service"
  | makeFunction => "make_function"
  | updateFunction => "update_function"
  | deleteFunction => "delete_function"
  | listFunctions => "list_functions"
  | describeFunction => "describe_function"
  | listPackages => "list_packages"
  | listTemplates => "list_templates"
  | describeTemplate => "describe_template"
  | makeAgent => "make_agent"
  | listAgents => "list_agents"
  | describeAgent => "describe_agent"
  | scaleAgent => "scale_agent"
  | startAgent => "start_agent"
  | stopAgent => "stop_agent"
  | destroyAgent => "destroy_agent"
  | addSchedule => "add_schedule"
  | removeSchedule => "remove_schedule"
  | listSchedules => "list_schedules"
  | addWebhook => "add_webhook"
  | removeWebhook => "remove_webhook"
  | listWebhooks => "list_webhooks"
  | setAgentState => "set_agent_state"
  | getAgentState => "get_agent_state"
  | deleteAgentState => "delete_agent_state"
  | listAgentStateKeys => "list_agent_state_keys"
  | configureAgentAi => "configure_agent_ai"
  | removeAgentAi => "remove_agent_ai"
  | configureMcpServers => "configure_mcp_servers"
  | configureOrchestrationLimits => "configure_orchestration_limits"
  | configureHeartbeat => "configure_heartbeat"
  | chatWithAgent => "chat_with_agent"
  | addChannel => "add_channel"
  | removeChannel => "remove_channel"
  | cloneAgent => "clone_agent"
  | makeProcedure => "make_procedure"
  | updateProcedure => "update_procedure"
  | deleteProcedure => "delete_procedure"
  | listProcedures => "list_procedures"
  | describeProcedure => "describe_procedure"
  | runProcedure => "run_procedure"
  | listProcedureExecutions => "list_procedure_executions"
  | describeProcedureExecution => "describe_procedure_execution"
  | lockFunction => "lock_function"
  | unlockFunction => "unlock_function"
  | publishView => "publish_view"
  | getViewUrl => "get_view_url"
  | clearView => "clear_view"
  | configureChatToken => "configure_chat_token"
  | configureGitRemote => "configure_git_remote"
  | removeGitRemote => "remove_git_remote"
  | exportNamespace => "export_namespace"
  | exportService => "export_service"
  | importNamespace => "import_namespace"
  | importService => "import_service"
  | addMcpServer => "add_mcp_server"
  | removeMcpServer => "remove_mcp_server"
  | listMcpServers => "list_mcp_servers"
  | describeMcpServer => "describe_mcp_server"
  | refreshMcpServer => "refresh_mcp_server"
  | updateMcpServer => "update_mcp_server"
  | setMcpServerSetting => "set_mcp_server_setting"
  | setMcpServerEnv => "set_mcp_server_env"
  | removeMcpServerEnv => "remove_mcp_server_env"
  | configureAgentMcp => "configure_agent_mcp"
  | addMcpServerRule => "add_mcp_server_rule"
  | removeMcpServerRule => "remove_mcp_server_rule"
  | listMcpServerRules => "list_mcp_server_rules"
  | setMcpServerToolTrust => "set_mcp_server_tool_trust"
  | getMcpServerStats => "get_mcp_server_stats"
  | getTokenSavingsReport => "get_token_savings_report"
  | suggestOptimizations => "suggest_optimizations"
  | getFunctionMcpStats => "get_function_mcp_stats"
  | configureAgentAccess => "configure_agent_access"
  | listAgentAccessRules => "list_agent_access_rules"
  | removeAgentAccessRule => "remove_agent_access_rule"
  | listExecutions => "list_executions"
  | describeExecution => "describe_execution"
  | addSecurityScanner => "add_security_scanner"
  | listSecurityScanners => "list_security_scanners"
  | updateSecurityScanner => "update_security_scanner"
  | removeSecurityScanner => "remove_security_scanner"
  | configureTelemetryWebhook => "configure_telemetry_webhook"
  | configureDiscovery => "configure_discovery"
  | configureCache => "configure_cache"
  | listOrchestrationRuns => "list_orchestration_runs"
  | describeOrchestrationRun => "describe_orchestration_run"
  | listScheduleFires => "list_schedule_fires"
  | addApiServer => "add_api_server"
  | refreshApiEndpoints => "refresh_api_endpoints"
  | listApiServers => "list_api_servers"
  | describeApiServer => "describe_api_server"
  | listEndpoints => "list_endpoints"
  | addManualEndpoint => "add_manual_endpoint"
  | enableEndpoint => "enable_endpoint"
  | disableEndpoint => "disable_endpoint"
  | removeApiServer => "remove_api_server"
  | updateApiSettings => "update_api_settings"
  | setApiCredentials => "set_api_credentials"
  | publishEndpoint => "publish_endpoint"
  | unpublishEndpoint => "unpublish_endpoint"
  | configureAgentApiAccess => "configure_agent_api_access"

def scope : Tool → String
  | listNamespaces | listServices | listFunctions | describeFunction | listPackages | listTemplates |
    describeTemplate | listAgents | describeAgent | listSchedules | listWebhooks | getAgentState |
    listAgentStateKeys | chatWithAgent | listProcedures | describeProcedure | listProcedureExecutions |
    describeProcedureExecution | getViewUrl | listMcpServers | describeMcpServer | listMcpServerRules |
    getMcpServerStats | getTokenSavingsReport | suggestOptimizations | getFunctionMcpStats |
    listAgentAccessRules | listExecutions | describeExecution | listSecurityScanners |
    listOrchestrationRuns | describeOrchestrationRun | listScheduleFires | listApiServers |
    describeApiServer | listEndpoints => "read"
  | runProcedure => "execute"
  | _ => "write"

end Tool

end McpworksApi.Create
