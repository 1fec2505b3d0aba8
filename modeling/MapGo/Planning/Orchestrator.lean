import MapGo.Planning.Evaluation

/-! The hand-offs of the planning orchestrator. Stages consume and dispatch messages through one
queue for each receiver; what an agent or a store does inside a stage is an outcome that the
stage is given. The supervisor's task graph orders search, weather, safety and planner. -/
namespace MapGo.Planning

open MapGo.Route (TravelStyle)

inductive AgentEndpoint where
  | user | system | supervisor | intent | search | safety | planner | critic | finalAnswer
  deriving DecidableEq, Repr

inductive ArtifactType where
  | planningRequest | intentArtifact | searchArtifact | safetyReport | planCandidate
  | reviewReport | retryDirective | recoveryEvent | finalAnswer
  deriving DecidableEq, Repr

structure AgentMessage where
  sender : AgentEndpoint
  receiver : AgentEndpoint
  artifactType : ArtifactType
  deriving DecidableEq, Repr

/-- How a run ends without a result: a protocol error of `_consume`, or any other exception. -/
inductive Stop where
  | noPending (receiver : AgentEndpoint)
  | cannotConsume (receiver : AgentEndpoint) (artifactType : ArtifactType)
  | raised
  deriving DecidableEq, Repr

def Stop.protocolError : Stop → Bool
  | .raised => false
  | _ => true

inductive AgentWorkflowMode where
  | off | shadow | enforce
  deriving DecidableEq, Repr

structure Settings where
  mode : AgentWorkflowMode
  maxAgentHandoffs : Nat := 12
  maxAgentWorkflowCostUsd : ℚ := 2 / 25
  maxCriticRetries : Nat := 1
  llmInputCostPerMillionUsd : ℚ≥0 := 2 / 5
  llmOutputCostPerMillionUsd : ℚ≥0 := 8 / 5

/-- What an agent returns, with the figures that are recorded of it. -/
structure AgentExecution (α : Type) where
  output : α
  estimatedCostUsd : ℚ≥0 := 0
  inputTokens : Nat := 0
  outputTokens : Nat := 0

/-- The outcome of the work inside a stage; `none` is an exception. -/
abbrev Outcome (α : Type) := Option (AgentExecution α)

/-- The recorded cost: the estimate, or the price of the tokens where there is none. -/
def AgentExecution.cost (settings : Settings) (execution : AgentExecution α) : ℚ≥0 :=
  if execution.estimatedCostUsd = 0 then
    (execution.inputTokens * settings.llmInputCostPerMillionUsd +
      execution.outputTokens * settings.llmOutputCostPerMillionUsd) / 1000000
  else execution.estimatedCostUsd

/-- A review that was completed, of the plan of the solve with that number. -/
structure CompletedReview where
  solve : Nat
  plan : Plan
  report : ReviewReport
  deriving DecidableEq

structure Orchestrator where
  settings : Settings
  pending : AgentEndpoint → List AgentMessage
  handoffCount : Nat := 0
  retryCount : Nat := 0
  totalCostUsd : ℚ≥0 := 0
  /-- History: how many plans the planner has made. -/
  solves : Nat := 0
  /-- History -/
  reviews : List CompletedReview := []

def raise (outcome : Option α) : Except Stop α :=
  match outcome with
  | some value => .ok value
  | none => .error .raised

namespace Orchestrator

def fresh (settings : Settings) : Orchestrator := { settings, pending := fun _ => [] }

/-- `_dispatch` -/
def dispatch (o : Orchestrator) (sender receiver : AgentEndpoint) (artifactType : ArtifactType) :
    Orchestrator :=
  let queue := o.pending receiver ++ [⟨sender, receiver, artifactType⟩]
  { o with pending := Function.update o.pending receiver queue }

/-- `_consume` -/
def consume (o : Orchestrator) (receiver : AgentEndpoint) (expected : List ArtifactType) :
    Except Stop Orchestrator :=
  match o.pending receiver with
  | [] => .error (.noPending receiver)
  | message :: rest =>
      if message.artifactType ∈ expected then
        .ok { o with pending := Function.update o.pending receiver rest }
      else .error (.cannotConsume receiver message.artifactType)

/-- `_record` -/
def record (o : Orchestrator) (execution : AgentExecution α) : Orchestrator :=
  { o with
    handoffCount := o.handoffCount + 1
    totalCostUsd := o.totalCostUsd + execution.cost o.settings }

def mayRunCritic (o : Orchestrator) : Bool :=
  decide (o.settings.mode ≠ .off) && decide (o.handoffCount < o.settings.maxAgentHandoffs) &&
    decide (o.totalCostUsd < o.settings.maxAgentWorkflowCostUsd)

def retryAllowed (o : Orchestrator) : Bool :=
  decide (o.settings.mode = .enforce) && decide (o.retryCount < o.settings.maxCriticRetries) &&
    decide (o.handoffCount < o.settings.maxAgentHandoffs)

def start (o : Orchestrator) (outcome : Outcome Unit) : Except Stop Orchestrator := do
  let o ← (o.dispatch .user .supervisor .planningRequest).consume .supervisor [.planningRequest]
  let execution ← raise outcome
  return (o.dispatch .supervisor .intent .planningRequest).record execution

def understand (o : Orchestrator)
    (outcome : Outcome (PlanIntent × List ClarificationQuestion)) :
    Except Stop ((PlanIntent × List ClarificationQuestion) × Orchestrator) := do
  let o ← o.consume .intent [.planningRequest]
  let execution ← raise outcome
  return (execution.output, (o.dispatch .intent .supervisor .intentArtifact).record execution)

def planNext (o : Orchestrator) (outcome : Outcome Unit) : Except Stop Orchestrator := do
  let o ← o.consume .supervisor [.intentArtifact]
  let execution ← raise outcome
  return (o.dispatch .supervisor .search .intentArtifact).record execution

/-- `recover`: one failed search, handed to the supervisor. -/
def recover (o : Orchestrator) (outcome : Outcome Unit) : Except Stop Orchestrator := do
  let o ← (o.dispatch .system .supervisor .recoveryEvent).consume .supervisor [.recoveryEvent]
  let execution ← raise outcome
  return o.record execution

end Orchestrator

inductive StepId where
  | search | weather | safetyCheck | planner
  deriving DecidableEq, Repr

structure AgentPlanStep where
  stepId : StepId
  dependsOn : List StepId
  deriving DecidableEq, Repr

def PlanIntent.safetySensitive (intent : PlanIntent) : Bool :=
  decide (0 < intent.hard.elderly) ||
    (decide (0 < intent.hard.wheelchairUsers) || intent.hard.wheelchairAccessible) ||
    (intent.preferences.minimizeWalking || intent.hard.maxWalkingMeters.isSome) ||
    decide (intent.preferences.travelStyle = TravelStyle.relaxed)

def weatherTokens : List String :=
  ["weather", "rain", "storm", "precipitation", "天气", "下雨", "雨"]

def PlanIntent.weatherRequired (intent : PlanIntent) : Bool :=
  intent.uncertain.any fun item =>
    weatherTokens.any fun token => contains (casefold (item.field ++ item.reason)) token

/-- The executable steps of `_build_execution_plan`, with their dependencies among themselves. -/
def buildExecutionPlan (safety weather : Bool) : List AgentPlanStep :=
  [[⟨.search, []⟩],
    if weather then [⟨.weather, []⟩] else [],
    if safety then [⟨.safetyCheck, .search :: if weather then [.weather] else []⟩] else [],
    [⟨.planner, [.search] ++ (if safety then [.safetyCheck] else []) ++
      if weather && !safety then [.weather] else []⟩]].flatten

/-- What happens inside the stages of one solve. -/
structure SolveOutcome where
  recoveries : List (Outcome Unit) := []
  search : Outcome Unit
  weather : Option Unit := some ()
  safety : Outcome Unit
  planner : Outcome AIPlanResult

namespace Orchestrator

def runSearch (o : Orchestrator) (graph : List AgentPlanStep) (solve : SolveOutcome) :
    Except Stop Orchestrator := do
  let o ← o.consume .search [.intentArtifact, .retryDirective]
  let o ← solve.recoveries.foldlM recover o
  let execution ← raise solve.search
  let receiver : AgentEndpoint :=
    if graph.any (·.stepId = .safetyCheck) then .safety else .planner
  return (o.dispatch .search receiver .searchArtifact).record execution

def checkSafety (o : Orchestrator) (solve : SolveOutcome) : Except Stop Orchestrator := do
  let o ← o.consume .safety [.searchArtifact]
  let execution ← raise solve.safety
  return (o.dispatch .safety .planner .safetyReport).record execution

def runPlanner (o : Orchestrator) (solve : SolveOutcome) :
    Except Stop (AIPlanResult × Orchestrator) := do
  let o ← o.consume .planner [.searchArtifact, .safetyReport]
  let execution ← raise solve.planner
  let result := execution.output
  let runCritic := decide (result.status ≠ .needClarification) && o.mayRunCritic
  let receiver : AgentEndpoint := if runCritic then .critic else .supervisor
  let o := (o.dispatch .planner receiver .planCandidate).record execution
  return (result, { o with solves := o.solves + 1 })

/-- `_execute_plan_step`; the planner's result is kept beside the orchestrator. -/
def executePlanStep (graph : List AgentPlanStep) (solve : SolveOutcome)
    (state : Option AIPlanResult × Orchestrator) :
    StepId → Except Stop (Option AIPlanResult × Orchestrator)
  | .search => do return (state.1, ← state.2.runSearch graph solve)
  | .weather => do
      let _ ← raise solve.weather
      return state
  | .safetyCheck => do return (state.1, ← state.2.checkSafety solve)
  | .planner => do
      let (result, o) ← state.2.runPlanner solve
      return (some result, o)

/-- The rounds of the task graph: all ready steps, until none is pending. -/
def executeRounds (graph : List AgentPlanStep) (solve : SolveOutcome) :
    Nat → List StepId → List StepId → Option AIPlanResult × Orchestrator →
      Except Stop (Option AIPlanResult × Orchestrator)
  | 0, _, _, _ => .error .raised
  | fuel + 1, pending, completed, state =>
      if pending = [] then .ok state
      else
        let ready := (graph.filter fun step =>
          step.stepId ∈ pending ∧ ∀ dependency ∈ step.dependsOn, dependency ∈ completed).map
            AgentPlanStep.stepId
        if ready = [] then .error .raised
        else do
          let state ← ready.foldlM (executePlanStep graph solve) state
          executeRounds graph solve fuel (pending.filter (· ∉ ready)) (completed ++ ready) state

def executePlanningStages (o : Orchestrator) (graph : List AgentPlanStep) (solve : SolveOutcome) :
    Except Stop (AIPlanResult × Orchestrator) := do
  let (result, o) ← executeRounds graph solve (graph.length + 1)
    (graph.map AgentPlanStep.stepId) [] (none, o)
  let result ← raise result
  return (result, o)

/-- `review`: nothing where the critic may not run or goes over the cost limit. -/
def review (o : Orchestrator) (plan : Plan) (outcome : Outcome ReviewReport) :
    Except Stop (Option ReviewReport × Orchestrator) :=
  if o.mayRunCritic then do
    let o ← o.consume .critic [.planCandidate]
    let execution ← raise outcome
    if o.settings.maxAgentWorkflowCostUsd < o.totalCostUsd + execution.estimatedCostUsd then
      return (none, o)
    else
      let o := (o.dispatch .critic .supervisor .reviewReport).record execution
      let completed := ⟨o.solves, plan, execution.output⟩
      return (some execution.output, { o with reviews := o.reviews ++ [completed] })
  else .ok (none, o)

/-- `apply_soft_adjustments`, with the outcome of the scheduling in the shared state. -/
def applySoftAdjustments (o : Orchestrator) (report : ReviewReport) (scheduled : Option Unit) :
    Except Stop Orchestrator :=
  if report.suggestedAdjustments = none then .ok o
  else do
    let o ← ({ o with retryCount := o.retryCount + 1 }).consume .supervisor [.reviewReport]
    let _ ← raise scheduled
    return o.dispatch .supervisor .search .retryDirective

def finalize (o : Orchestrator) (outcome : Outcome Unit) : Except Stop Orchestrator := do
  let o := { o with pending := Function.update o.pending .supervisor (o.pending .supervisor).tail }
  let execution ← raise outcome
  return (o.dispatch .supervisor .finalAnswer .finalAnswer).record execution

end Orchestrator
end MapGo.Planning
