import MapGo.Json
import MapGo.Shared.State

/-! The capability registry of the agents and the contracts of their tools. -/
namespace MapGo.Agents

open MapGo.Shared (AgentType)

inductive InvocationMode where
  | agentCallable | internalStage | workflowOnly
  deriving DecidableEq, Repr

inductive DataScope where
  | planningRequest | mapSearch | safetyReview | routeMatrix | routeOptimization | transitRoutes
  | tripState | preciseLocation | weather | replanProposal | externalShare | userPreferences
  deriving DecidableEq, Repr

structure AgentCapability where
  name : String
  agents : List AgentType
  invocationMode : InvocationMode
  dataScopes : List DataScope
  deriving DecidableEq, Repr

/-- `CAPABILITIES` -/
def capabilities : List AgentCapability := [
  ⟨"parse_requirement", [.intent], .internalStage, [.planningRequest]⟩,
  ⟨"search_poi", [.search], .internalStage, [.mapSearch]⟩,
  ⟨"check_travel_safety", [.safety], .internalStage, [.safetyReview]⟩,
  ⟨"get_route_matrix", [.planner], .internalStage, [.routeMatrix]⟩,
  ⟨"optimize_route", [.planner], .internalStage, [.routeOptimization]⟩,
  ⟨"verify_transit_edges", [.planner], .internalStage, [.transitRoutes]⟩,
  ⟨"get_trip_state", [.companion], .agentCallable, [.tripState]⟩,
  ⟨"get_current_location", [.companion], .agentCallable, [.preciseLocation]⟩,
  ⟨"get_weather", [.companion], .agentCallable, [.weather]⟩,
  ⟨"propose_replan", [.companion], .agentCallable, [.tripState, .replanProposal]⟩,
  ⟨"generate_attraction_brief", [], .workflowOnly, [.tripState]⟩,
  ⟨"create_plan_patch", [], .workflowOnly, [.tripState, .replanProposal]⟩,
  ⟨"share_trip_status", [], .workflowOnly, [.tripState, .externalShare]⟩,
  ⟨"load_confirmed_preferences", [], .workflowOnly, [.userPreferences]⟩,
  ⟨"save_explicit_preference", [], .workflowOnly, [.userPreferences]⟩,
  ⟨"delete_explicit_preference", [], .workflowOnly, [.userPreferences]⟩]

/-- `AgentToolRegistry.get` -/
def capability (name : String) : Option AgentCapability :=
  capabilities.find? fun item => item.name = name

/-- `AgentToolRegistry.authorize`, with the reason of a `CapabilityAuthorizationError`. -/
def authorize (agentType : AgentType) (name : String) (invocationMode : InvocationMode)
    (requestedScopes : List DataScope) : Except String AgentCapability :=
  match capability name with
  | none => .error "tool_not_registered"
  | some registered =>
      if agentType ∉ registered.agents then .error "tool_not_allowed_for_agent"
      else if registered.invocationMode ≠ invocationMode then .error "invocation_mode_not_allowed"
      else if requestedScopes ≠ registered.dataScopes then .error "data_scope_not_allowed"
      else .ok registered

/-- The argument models of the tools. -/
inductive ArgumentModel where
  | parseRequirement | safetyCheck | tripStateQuery | currentLocationQuery | weatherQuery
  | replanProposal | searchPoi | routeMatrix | optimizeRoute
  deriving DecidableEq, Repr

/-- `TOOL_ARGUMENT_MODELS` -/
def toolArgumentModel : String → Option ArgumentModel
  | "parse_requirement" => some .parseRequirement
  | "check_travel_safety" => some .safetyCheck
  | "get_trip_state" => some .tripStateQuery
  | "get_current_location" => some .currentLocationQuery
  | "get_weather" => some .weatherQuery
  | "propose_replan" => some .replanProposal
  | "search_poi" => some .searchPoi
  | "get_route_matrix" => some .routeMatrix
  | "verify_transit_edges" => some .routeMatrix
  | "optimize_route" => some .optimizeRoute
  | _ => none

/-- `validate_tool_arguments`; the models check and dump the arguments. -/
def validateToolArguments (modelValidate : ArgumentModel → Dict → Option Dict) (tool : String)
    (arguments : Dict) : Option Dict :=
  match toolArgumentModel tool with
  | none => some arguments
  | some model => modelValidate model arguments

/-- `AgentToolRegistry` raises on two capabilities of one name. -/
theorem capabilities_nodup : (capabilities.map AgentCapability.name).Nodup := by decide

end MapGo.Agents
