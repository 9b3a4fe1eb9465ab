import McpworksApi.Models.Agents
import McpworksApi.Py.Str

/-! The tool tiers of agents (`core/tool_permissions.py`): which management tools an agent may
call, which of them need a confirmation, and how often they may be called. -/

namespace McpworksApi.Access

open Models Py

def executeOnlyTools : List String := ["execute"]

def standardTools : List String := executeOnlyTools ++
  ["get_agent_state", "set_agent_state", "delete_agent_state", "list_agent_state_keys",
    "list_functions", "describe_function", "list_services", "list_namespaces", "list_agents",
    "describe_agent", "list_schedules", "list_webhooks", "list_packages", "list_templates",
    "describe_template", "chat_with_agent", "get_view_url"]

def builderTools : List String := standardTools ++
  ["make_function", "update_function", "make_service", "make_namespace", "make_agent",
    "add_schedule", "add_webhook", "add_channel", "configure_agent_ai", "configure_mcp_servers",
    "configure_orchestration_limits", "configure_heartbeat", "lock_function", "unlock_function",
    "clone_agent", "publish_view", "clear_view"]

def adminTools : List String := builderTools ++
  ["delete_function", "delete_service", "destroy_agent", "remove_agent_ai", "remove_schedule",
    "remove_webhook", "remove_channel", "start_agent", "stop_agent"]

def tierTools : ToolTier → List String
  | .executeOnly => executeOnlyTools
  | .standard => standardTools
  | .builder => builderTools
  | .admin => adminTools

def isToolAllowed (tier : ToolTier) (toolName : String) : Bool :=
  contains toolName "__" || decide (toolName ∈ tierTools tier)

def confirmationRequired : List String := ["destroy_agent", "delete_service"]

def requiresConfirmation (toolName : String) : Bool := decide (toolName ∈ confirmationRequired)

def managementRateLimit : String → Option (ℕ × ℕ)
  | "make_function" => some (10, 60)
  | "update_function" => some (20, 60)
  | "delete_function" => some (5, 60)
  | "destroy_agent" => some (2, 3600)
  | "delete_service" => some (2, 3600)
  | "configure_agent_ai" => some (5, 3600)
  | _ => none

end McpworksApi.Access
