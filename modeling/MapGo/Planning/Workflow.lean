import MapGo.Exits
import MapGo.Planning.Service
import MapGo.Shared.State

/-! A planning run with its shared state, its durable record and its trace. Every operation that
the run waits for may be interrupted; what a check or an agent raises beyond the model is raised
by an interruption. -/
namespace MapGo.Planning

open Exits
open MapGo.Shared (AgentType SharedState SharedStateError AgentSharedStateManager)

/-- The nodes of the supervisor's task graph. -/
inductive TaskKey where
  | intent
  | step (stepId : StepId)
  | critic
  | finalAnswer
  deriving DecidableEq, Repr

inductive TaskStatus where
  | pending | running | retrying | succeeded | failed | blocked | skipped
  deriving DecidableEq, Repr

structure TaskNode where
  key : TaskKey
  status : TaskStatus := .pending
  attemptCount : Nat := 0

inductive TraceStatus where
  | running | budgetExceeded | needsClarification | failed
  | result (status : PlanStatus)
  deriving DecidableEq, Repr

/-- The rows of a run: `AgentWorkflowRun` and its `AgentWorkflowTask`s. -/
structure WorkflowRecord where
  status : TraceStatus := .running
  tasks : TaskKey → Option TaskStatus := fun _ => none

inductive Failure where
  | stopped (stop : Stop)
  | shared (error : SharedStateError)
  /-- The `ValidationError` of an `AgentStepTrace`. -/
  | audit
  /-- A `CancelledError`, which is no `Exception`. -/
  | cancelled
  deriving DecidableEq, Repr

inductive Disruption where
  | raises | cancels
  deriving DecidableEq, Repr

def Disruption.failure : Disruption → Failure
  | .raises => .stopped .raised
  | .cancels => .cancelled

/-- What comes between: time passes, the stored state is lost (it expires or is evicted), and the
operation raises, before or after it has taken effect. -/
structure Interruption where
  seconds : Nat := 0
  lost : Bool := false
  disruption : Option Disruption := none
  applied : Bool := false

structure Workflow (V : Type) where
  orchestrator : Orchestrator
  now : Nat := 0
  /-- The interruptions to come; none follow after the last. -/
  interruptions : List Interruption := []
  stateRevision : Int := -1
  /-- The runtime store under the key of the run. -/
  shared : Option (SharedState V) := none
  status : TraceStatus := .running
  /-- The steps of `execution_plan`; empty before there is a plan. -/
  tasks : List TaskNode := []
  /-- How many tool calls each recorded step has. -/
  steps : List Nat := []
  /-- How many messages the trace has. -/
  messages : Nat := 0
  record : WorkflowRecord := {}
  /-- History: the tool calls of all steps that came to be recorded. -/
  recorded : List Nat := []
  /-- History: the searches that came to be recorded. -/
  searches : Nat := 0

/-- How the searches of the tasks go, and their repetitions after each failed attempt. -/
structure SearchScript where
  found : List Bool
  repeated : Nat → Nat → Bool := fun _ _ => false
  /-- `_cached_results_available` -/
  cached : Nat → Nat → Bool := fun _ _ => false

/-- How far the planner comes with its tools. -/
inductive PlannerTools where
  | asked | matrixFailed | optimized | transitVerified
  deriving DecidableEq, Repr

def PlannerTools.toolCalls : PlannerTools → Nat
  | .asked => 0
  | .matrixFailed => 1
  | .optimized => 2
  | .transitVerified => 3

structure SolveScript where
  search : SearchScript
  searched : Outcome Unit
  weather : Option Unit := some ()
  safety : Outcome Unit
  planner : Outcome AIPlanResult
  plannerTools : PlannerTools := .optimized

/-- What happens inside the stages of a run. Values that the agents write to the shared state are
given by the revision they replace and their field. -/
structure WorkflowScript (V : Type) where
  understand : Outcome (PlanIntent × List ClarificationQuestion)
  firstSolve : SolveScript
  firstReview : Outcome ReviewReport
  secondSolve : SolveScript
  secondReview : Outcome ReviewReport
  values : Int → String → V
  messageIds : Int → Option String

/-- The service with what it is given. -/
structure PlanningService (V : Type) where
  manager : AgentSharedStateManager V
  settings : Settings
  agentSearchMaxAttempts : Int := 2
  distributed : Bool := false
  /-- The largest value that the runtime store accepts. -/
  maxValueBytes : Nat := 1000000
  taskId : String
  /-- `checkpoint_store` is given. -/
  durable : Bool := true

abbrev Run (V : Type) := EStateM Failure (Workflow V)

namespace Run
variable {V α : Type}

def interruption : Run V Interruption :=
  modifyGet fun w =>
    match w.interruptions with
    | [] => ({}, w)
    | next :: rest =>
        (next, { w with
          interruptions := rest
          now := w.now + next.seconds
          shared := if next.lost then none else w.shared })

/-- An operation that may be interrupted. -/
def await (effect : Workflow V → α × Workflow V) : Run V α := do
  let next ← interruption
  match next.disruption with
  | none => modifyGet effect
  | some disruption => do
      modify fun w => if next.applied then (effect w).2 else w
      throw disruption.failure

/-- Work without an effect on the run. -/
def work : Run V Unit := await fun w => ((), w)

def ofShared : Except SharedStateError α → Run V α
  | .ok value => pure value
  | .error error => throw (.shared error)

/-- An agent's execution; `none` raises. -/
def agent (outcome : Outcome α) : Run V (AgentExecution α) := do
  work
  match outcome with
  | some execution => pure execution
  | none => throw (.stopped .raised)

/-- `_dispatch` -/
def dispatch (sender receiver : AgentEndpoint) (artifactType : ArtifactType) : Run V Unit := do
  work
  modify fun w => { w with
    orchestrator := w.orchestrator.dispatch sender receiver artifactType
    messages := w.messages + 1 }

/-- `_consume` -/
def consume (receiver : AgentEndpoint) (expected : List ArtifactType) : Run V Unit := do
  let w ← get
  match w.orchestrator.consume receiver expected with
  | .ok o => set { w with orchestrator := o }
  | .error stop => throw (.stopped stop)

def maxToolCalls : Nat := 20

/-- `_record`; an `AgentStepTrace` takes no more than twenty tool calls. -/
def record (execution : AgentExecution α) (toolCalls : Nat) : Run V Unit := do
  modify fun w => { w with recorded := w.recorded ++ [toolCalls] }
  if maxToolCalls < toolCalls then throw .audit
  else modify fun w => { w with
    steps := w.steps ++ [toolCalls]
    orchestrator := w.orchestrator.record execution }

/-- The supervisor's executions cost nothing and call no tools. -/
def supervised : AgentExecution Unit := { output := () }

end Run

namespace Workflow
variable {V : Type}

/-- `_set_plan_status` -/
def setPlanStatus (w : Workflow V) (key : TaskKey) (status : TaskStatus) (begins : Bool) :
    Workflow V :=
  { w with tasks := w.tasks.map fun task =>
      if task.key = key then
        { task with
          status := status
          attemptCount := task.attemptCount + if begins then 1 else 0 }
      else task }

/-- `DurableWorkflowCheckpointStore.checkpoint`: the rows after its commit. -/
def rows (w : Workflow V) : WorkflowRecord :=
  { status := w.status
    tasks := fun key =>
      match w.tasks.find? fun task => task.key = key with
      | some task => some task.status
      | none => w.record.tasks key }

/-- What `DurableWorkflowCheckpointStore.fail` makes of the trace. -/
def failedTrace (w : Workflow V) : Workflow V :=
  { w with
    status := .failed
    tasks := w.tasks.map fun task => { task with
      status :=
        match task.status with
        | .running | .retrying => .failed
        | .pending => .blocked
        | status => status } }

end Workflow

def SearchScript.failures (search : SearchScript) : List Nat :=
  (List.range search.found.length).filter fun index => search.found[index]? = some false

inductive RecoveryAction where
  | retry | fallbackCached | fallbackUnavailable
  deriving DecidableEq, Repr

/-- `SupervisorAgent.recover` of a failed search. -/
def recoveryAction (attempt maxAttempts : Nat) (fallbackAvailable : Bool) : RecoveryAction :=
  if attempt < maxAttempts then .retry
  else if fallbackAvailable then .fallbackCached
  else .fallbackUnavailable

namespace Run
variable {V α : Type}

def getJson : Run V (Option (SharedState V)) := await fun w => (w.shared, w)

/-- `DurableWorkflowCheckpointStore.checkpoint` -/
def commit : Run V Unit := await fun w => ((), { w with record := w.rows })

/-- `clear_short_term_memory` -/
def clearShortTermMemory : Run V Unit := await fun w => ((), { w with shared := none })

def setPlanStatus (key : TaskKey) (status : TaskStatus) (begins : Bool) : Run V Unit :=
  modify fun w => w.setPlanStatus key status begins

def runWeather (solve : SolveScript) : Run V Unit := do
  work
  match solve.weather with
  | some _ => pure ()
  | none => throw (.stopped .raised)

/-- `_run_remote_agent`: a request or its response joins the trace. -/
def exchange : Run V Unit := do
  work
  modify fun w => { w with messages := w.messages + 1 }

/-- `asyncio.gather` with `return_exceptions` -/
def gather : List (Run V α) → Run V (List (Except Failure α))
  | [] => pure []
  | prog :: rest => do
      let result ← captured prog
      let results ← gather rest
      pure (result :: results)

def setAll (steps : List StepId) (status : TaskStatus) (begins : Bool) : Run V Unit :=
  modify fun w => steps.foldl (fun w step => w.setPlanStatus (.step step) status begins) w

/-- The statuses of a round after it. -/
def settle (results : List (StepId × Except Failure (Option AIPlanResult))) : Run V Unit :=
  modify fun w => results.foldl (fun w result =>
    w.setPlanStatus (.step result.1) (if result.2.isOk then .succeeded else .failed) false) w

def firstFailure (results : List (Except Failure α)) : Option Failure :=
  results.findSome? fun result =>
    match result with
    | .ok _ => none
    | .error failure => some failure

def planned (results : List (Except Failure (Option AIPlanResult))) : Option AIPlanResult :=
  results.findSome? fun result =>
    match result with
    | .ok plan => plan
    | .error _ => none

end Run

namespace PlanningService
variable {V α : Type} (service : PlanningService V) (script : WorkflowScript V)

open Run

/-- `max_attempts` of a search -/
def maxAttempts : Nat := (max 1 (min 10 service.agentSearchMaxAttempts)).toNat

def compareSetJson (expectedRevision : Int) (state : SharedState V) : Run V Bool :=
  await fun w =>
    if (w.shared.elim (-1) fun current => (current.revision : Int)) = expectedRevision ∧
        service.manager.codec.bytes state ≤ service.maxValueBytes then
      (true, { w with shared := some state })
    else (false, w)

/-- `AgentSharedStateManager.initialize` without a route plan -/
def initialState : Run V (SharedState V) := do
  match ← getJson with
  | some raw => ofShared (service.manager.codec.verified raw)
  | none => do
      let w ← get
      let state ← ofShared (service.manager.initialState service.taskId none w.now)
      if ← service.compareSetJson (-1) state then pure state
      else
        match ← getJson with
        | some raw => ofShared (service.manager.codec.verified raw)
        | none => throw (.shared (.conflict "shared state initialization was not stored"))

/-- `AgentSharedStateManager.read` -/
def read : Run V (SharedState V) := do
  match ← getJson with
  | some raw => ofShared (service.manager.codec.verified raw)
  | none => throw (.shared (.notFound ("shared state not found: " ++ service.taskId)))

/-- `AgentSharedStateManager.update`, and the new revision is kept. -/
def update (actor : AgentType) (action : String) (changes : Int → List (String × V))
    (messageIds : Int → Option String) : Run V Unit := do
  let w ← get
  ofShared (AgentSharedStateManager.authorize actor action (changes w.stateRevision))
  let current ← service.read
  let reached ← get
  let updated ← ofShared (service.manager.prepareUpdate current actor w.stateRevision action
    (changes w.stateRevision) (messageIds w.stateRevision) reached.now)
  if ← service.compareSetJson w.stateRevision updated then
    modify fun w => { w with stateRevision := updated.revision }
  else throw (.shared (.conflict "shared state changed concurrently"))

/-- An update by an agent of the run. -/
def write (actor : AgentType) (action : String) (fields : List String) : Run V Unit :=
  service.update actor action
    (fun revision => fields.map fun field => (field, script.values revision field))
    script.messageIds

/-- `checkpoint`; the trace carries an audit of the shared state. -/
def checkpoint : Run V Unit := do
  if service.durable then do
    let w ← get
    if 0 ≤ w.stateRevision then do
      let _ ← service.read
    commit
  else pure ()

/-- `fail` -/
def fail (values : Int → String → V) : Run V Unit := do
  if service.durable then do
    let w ← get
    if 0 ≤ w.stateRevision then do
      service.update .supervisor "workflow_failed"
        (fun revision => [("execution_context", values revision "execution_context")])
        fun _ => none
      let _ ← service.read
    modify Workflow.failedTrace
    commit
    work
  else pure ()

def start : Run V Unit := do
  let state ← service.initialState
  modify fun w => { w with stateRevision := state.revision }
  dispatch .user .supervisor .planningRequest
  consume .supervisor [.planningRequest]
  work
  dispatch .supervisor .intent .planningRequest
  record supervised 0
  service.checkpoint

def understand : Run V (PlanIntent × List ClarificationQuestion) := do
  consume .intent [.planningRequest]
  let execution ← agent script.understand
  service.write script .intent "intent_analyzed" ["user_requirement", "clarification_questions"]
  dispatch .intent .supervisor .intentArtifact
  record execution 1
  service.checkpoint
  pure execution.output

/-- The nodes of `_build_execution_plan`. -/
def executionTasks (intent : PlanIntent) : List TaskNode :=
  let steps := intent.graph.map fun step => TaskKey.step step.stepId
  let critic : List TaskKey := if service.settings.mode = .off then [] else [.critic]
  (TaskKey.intent :: steps ++ critic ++ [TaskKey.finalAnswer]).map fun key => { key := key }

def planNext (intent : PlanIntent) : Run V Unit := do
  consume .supervisor [.intentArtifact]
  let _ ← service.read
  work
  modify fun w => { w with tasks := service.executionTasks intent }
  setPlanStatus .intent .succeeded true
  dispatch .supervisor .search .intentArtifact
  record supervised 0
  service.checkpoint

/-- `recover` -/
def recover (attempt : Nat) (fallbackAvailable : Bool) : Run V RecoveryAction := do
  dispatch .system .supervisor .recoveryEvent
  consume .supervisor [.recoveryEvent]
  work
  service.write script .supervisor "recovery_applied" ["execution_context"]
  record supervised 0
  service.checkpoint
  pure (recoveryAction attempt service.maxAttempts fallbackAvailable)

/-- The attempts on one failed task; the answer counts the repeated searches. -/
def searchAttempts (search : SearchScript) (index : Nat) : Nat → Nat → Run V Nat
  | 0, _ => pure 0
  | remaining + 1, attempt => do
      let action ← service.recover script attempt (search.cached index attempt)
      if action = .retry then do
        work
        if search.repeated index attempt then pure 1
        else do
          let calls ← searchAttempts search index remaining (attempt + 1)
          pure (calls + 1)
      else pure 0

def searchFailures (search : SearchScript) : List Nat → Run V Nat
  | [] => pure 0
  | index :: rest => do
      let calls ← service.searchAttempts script search index service.maxAttempts 1
      let more ← searchFailures search rest
      pure (calls + more)

/-- `SearchAgent.run`; the answer counts its tool calls. -/
def runSearchAgent (search : SearchScript) : Run V Nat := do
  work
  let calls ← service.searchFailures script search search.failures
  work
  pure (search.found.length + calls)

def runSearch (graph : List AgentPlanStep) (solve : SolveScript) : Run V Unit := do
  consume .search [.intentArtifact, .retryDirective]
  let _ ← service.read
  work
  let toolCalls ← service.runSearchAgent script solve.search
  let execution ← agent solve.searched
  service.write script .search "search_completed" ["poi_candidates"]
  let receiver : AgentEndpoint :=
    if graph.any (·.stepId = .safetyCheck) then .safety else .planner
  dispatch .search receiver .searchArtifact
  modify fun w => { w with searches := w.searches + 1 }
  record execution toolCalls

def checkSafety (solve : SolveScript) : Run V Unit := do
  consume .safety [.searchArtifact]
  let _ ← service.read
  let execution ← agent solve.safety
  service.write script .safety "safety_checked" ["execution_context"]
  dispatch .safety .planner .safetyReport
  record execution 1

/-- An agent that may run on a worker. -/
def placed (outcome : Outcome α) : Run V (AgentExecution α) := do
  if service.distributed then do
    exchange
    let execution ← agent outcome
    exchange
    pure execution
  else agent outcome

def runPlanner (solve : SolveScript) : Run V AIPlanResult := do
  consume .planner [.searchArtifact, .safetyReport]
  let _ ← service.read
  let execution ← service.placed solve.planner
  let result := execution.output
  service.write script .planner "plan_completed" ["route_plan"]
  let w ← get
  let runCritic := decide (result.status ≠ .needClarification) && w.orchestrator.mayRunCritic
  let receiver : AgentEndpoint := if runCritic then .critic else .supervisor
  dispatch .planner receiver .planCandidate
  record execution solve.plannerTools.toolCalls
  modify fun w => { w with orchestrator := { w.orchestrator with solves := w.orchestrator.solves + 1 } }
  pure result

/-- `_execute_plan_step` -/
def executePlanStep (graph : List AgentPlanStep) (solve : SolveScript) :
    StepId → Run V (Option AIPlanResult)
  | .search => do
      service.runSearch script graph solve
      pure none
  | .weather => do
      runWeather solve
      pure none
  | .safetyCheck => do
      service.checkSafety script solve
      pure none
  | .planner => do
      let result ← service.runPlanner script solve
      pure (some result)

/-- The rounds of the task graph: all ready steps, until none is pending. -/
def executeRounds (graph : List AgentPlanStep) (solve : SolveScript) :
    Nat → List StepId → List StepId → Option AIPlanResult → Run V (Option AIPlanResult)
  | 0, _, _, _ => throw (.stopped .raised)
  | fuel + 1, pending, completed, plan =>
      if pending = [] then pure plan
      else
        let ready := (graph.filter fun step =>
          step.stepId ∈ pending ∧ ∀ dependency ∈ step.dependsOn, dependency ∈ completed).map
            AgentPlanStep.stepId
        if ready = [] then do
          setAll pending .blocked false
          throw (.stopped .raised)
        else do
          setAll ready .running true
          service.checkpoint
          let results ← gather (ready.map (service.executePlanStep script graph solve))
          settle (ready.zip results)
          let rest := pending.filter (· ∉ ready)
          match firstFailure results with
          | some failure => do
              setAll rest .blocked false
              service.checkpoint
              throw failure
          | none => do
              service.checkpoint
              executeRounds graph solve fuel rest (completed ++ ready)
                ((planned results).or plan)

/-- The steps before a solve: those that ran before are to be retried. -/
def reopened (graph : List AgentPlanStep) (w : Workflow V) : Workflow V :=
  { w with tasks := w.tasks.map fun task =>
      if task.key ∈ graph.map fun step => TaskKey.step step.stepId then
        { task with status := if task.attemptCount = 0 then .pending else .retrying }
      else task }

def executePlanningStages (intent : PlanIntent) (solve : SolveScript) : Run V AIPlanResult := do
  modify (reopened intent.graph)
  service.checkpoint
  let plan ← service.executeRounds script intent.graph solve (intent.graph.length + 1)
    (intent.graph.map AgentPlanStep.stepId) [] none
  match plan with
  | some result => pure result
  | none => throw (.stopped .raised)

/-- What `review` does when its critic raises an `Exception`. -/
def failedCritic (failure : Failure) : Run V (AgentExecution ReviewReport) := do
  if failure = .cancelled then throw failure
  else do
    setPlanStatus .critic .failed false
    service.checkpoint
    throw failure

def review (plan : Plan) (outcome : Outcome ReviewReport) : Run V (Option ReviewReport) := do
  let w ← get
  if w.orchestrator.mayRunCritic then do
    setPlanStatus .critic .running true
    service.checkpoint
    consume .critic [.planCandidate]
    let _ ← service.read
    work
    let answer ← captured (service.placed outcome)
    let execution ← match answer with
      | .ok execution => pure execution
      | .error failure => service.failedCritic failure
    let reached ← get
    if reached.orchestrator.settings.maxAgentWorkflowCostUsd <
        reached.orchestrator.totalCostUsd + execution.estimatedCostUsd then do
      modify fun w => { w with status := .budgetExceeded }
      setPlanStatus .critic .failed false
      service.checkpoint
      pure none
    else do
      service.write script .critic "critic_reviewed" ["evaluation_result"]
      dispatch .critic .supervisor .reviewReport
      record execution 0
      modify fun w =>
        let completed := ⟨w.orchestrator.solves, plan, execution.output⟩
        { w with orchestrator :=
            { w.orchestrator with reviews := w.orchestrator.reviews ++ [completed] } }
      setPlanStatus .critic .succeeded false
      service.checkpoint
      pure (some execution.output)
  else do
    setPlanStatus .critic .skipped false
    service.checkpoint
    pure none

/-- `apply_soft_adjustments` -/
def applySoftAdjustments (report : ReviewReport) : Run V Unit := do
  if report.suggestedAdjustments = none then pure ()
  else do
    modify fun w => { w with
      orchestrator := { w.orchestrator with retryCount := w.orchestrator.retryCount + 1 }
      tasks := w.tasks.map fun task =>
        if task.key ∉ [.intent, .finalAnswer] ∧ task.status = .succeeded then
          { task with status := .retrying }
        else task }
    consume .supervisor [.reviewReport]
    let _ ← service.read
    work
    service.write script .supervisor "soft_retry_scheduled" ["soft_adjustments"]
    dispatch .supervisor .search .retryDirective
    service.checkpoint

def finalize : Run V Unit := do
  setPlanStatus .finalAnswer .running true
  service.checkpoint
  modify fun w => { w with orchestrator := { w.orchestrator with
    pending := Function.update w.orchestrator.pending .supervisor
      (w.orchestrator.pending .supervisor).tail } }
  service.write script .supervisor "workflow_finalized" ["execution_context"]
  work
  dispatch .supervisor .finalAnswer .finalAnswer
  record supervised 0
  setPlanStatus .finalAnswer .succeeded false
  let _ ← service.read
  service.checkpoint

/-- `finalize` and `finish`. -/
def close (result : AIPlanResult) (status : TraceStatus) : Run V AIPlanResult := do
  service.finalize script
  modify fun w => { w with status := if w.status = .running then status else w.status }
  pure result

/-- Everything from the first review to the enforced verdict. -/
def reviewed (intent : PlanIntent) (result : AIPlanResult) : Run V AIPlanResult := do
  let review ← service.review script result.plan script.firstReview
  let mode := service.settings.mode
  match review with
  | none => pure (if mode = .enforce then result.unreviewed else result)
  | some review => do
      let w ← get
      if review.verdict = .retryWithSoftAdjustments ∧ w.orchestrator.retryAllowed then do
        service.applySoftAdjustments script review
        let result ← service.executePlanningStages script intent script.secondSolve
        let second ← service.review script result.plan script.secondReview
        match second with
        | none => pure (result.underReview mode review)
        | some second =>
            pure ({ result with criticReview := some second }.underReview mode second)
      else pure ({ result with criticReview := some review }.underReview mode review)

/-- `_plan` -/
def planOnce (request : AIPlanRequest) : Run V AIPlanResult := do
  service.start
  let (intent, requiredQuestions) ← service.understand script
  if requiredQuestions ≠ [] then
    service.close script {
      plan := { status := .needClarification, intent := intent }
      planningState := .needClarification
      questions := requiredQuestions } .needsClarification
  else do
    service.planNext intent
    let result ← service.executePlanningStages script intent script.firstSolve
    if result.status = .needClarification then service.close script result .needsClarification
    else do
      let result ← service.reviewed script intent result
      let result := result.confirm request
      service.close script result (.result result.status)

/-- The `try` block of `plan`. -/
def attempt (request : AIPlanRequest) : Run V AIPlanResult := do
  let result ← service.planOnce script request
  service.checkpoint
  pure result

end PlanningService

/-- What reaches the caller of a planning run. -/
inductive Ending where
  | returned (result : AIPlanResult)
  /-- The exception that ended the run. -/
  | raised (failure : Failure)
  /-- Another exception, raised by the handler of the first. -/
  | replaced (failure other : Failure)
  deriving DecidableEq

/-- `plan`: a failed run is finalized, and a finished one gives up its shared state. -/
def PlanningService.plan {V : Type} (service : PlanningService V) (script : WorkflowScript V)
    (request : AIPlanRequest) (w : Workflow V) : Ending × Workflow V :=
  match service.attempt script request w with
  | .ok result w =>
      match Run.clearShortTermMemory w with
      | .ok _ w => (.returned result, w)
      | .error failure w => (.raised failure, w)
  | .error failure w =>
      if failure = .cancelled then (.raised failure, w)
      else
        match service.fail script.values w with
        | .ok _ w => (.raised failure, w)
        | .error other w => (.replaced failure other, w)

end MapGo.Planning
