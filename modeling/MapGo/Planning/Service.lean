import MapGo.Planning.Orchestrator

/-! The planning service: intake, a first solve, its review, at most one soft retry with a review
of its own, the confirmation gate and the final answer. A script gives the outcome of the work
inside every stage. -/
namespace MapGo.Planning

open MapGo.Route (TravelStyle)

def walkingConfirmationKey : String := "walking_distance"
def costConfirmationKey : String := "estimated_cost"
def generalWalkingConfirmationMeters : ℚ := 8000
def sensitiveWalkingConfirmationMeters : ℚ := 6000
def highCostConfirmationYuan : ℚ := 1000

/-- `_walking_threshold_meters` -/
def walkingThresholdMeters (plan : Plan) : ℚ :=
  let hard := plan.intent.hard
  let preferences := plan.intent.preferences
  if 0 < hard.elderly ∨ 0 < hard.children ∨ 0 < hard.wheelchairUsers ∨ hard.wheelchairAccessible ∨
      preferences.minimizeWalking ∨ preferences.travelStyle = TravelStyle.relaxed then
    sensitiveWalkingConfirmationMeters
  else generalWalkingConfirmationMeters

def AIPlanRequest.confirmed (request : AIPlanRequest) (key : String) : Bool :=
  request.humanConfirmations.lookup key = some true

/-- `_needs_walking_confirmation` -/
def needsWalkingConfirmation (request : AIPlanRequest) (plan : Plan) : Bool :=
  decide (plan.intent.transportMode = .walking) && plan.intent.hard.maxWalkingMeters.isNone &&
    !request.confirmed walkingConfirmationKey &&
    decide (walkingThresholdMeters plan ≤ number plan.totalDistanceMeters)

/-- `_estimated_plan_cost_yuan` -/
def estimatedPlanCostYuan (plan : Plan) : ℚ :=
  (plan.stops.map fun stop => number stop.poi.estimatedCostYuan).sum

def walkingQuestion (plan : Plan) : ClarificationQuestion :=
  let walkedKm := fixedText 1 (number plan.totalDistanceMeters / 1000)
  { field := "human_confirmation." ++ walkingConfirmationKey
    kind := .confirmation
    reason := "预计步行约 " ++ walkedKm ++ " 公里，超过人工确认阈值 " ++
      fixedText 1 (walkingThresholdMeters plan / 1000) ++ " 公里"
    question := "当前路线预计步行约 " ++ walkedKm ++
      " 公里，是否继续？选择不接受会改为少步行，并自动收紧步行上限后重新规划。" }

def costQuestion (plan : Plan) : ClarificationQuestion :=
  let total := fixedText 0 (estimatedPlanCostYuan plan)
  { field := "human_confirmation." ++ costConfirmationKey
    kind := .confirmation
    reason := "候选 POI 预计费用约 " ++ total ++ " 元，超过人工确认阈值 1000 元"
    question := "当前方案预计门票/服务费用约 " ++ total ++
      " 元，是否继续？选择不接受会改为省钱优先，并设置总预算上限后重新规划。" }

/-- `select_human_confirmation_questions` -/
def selectHumanConfirmationQuestions (request : AIPlanRequest) (plan : Plan) :
    List ClarificationQuestion :=
  if plan.status ≠ .success then []
  else
    [if needsWalkingConfirmation request plan then [walkingQuestion plan] else [],
      if highCostConfirmationYuan ≤ estimatedPlanCostYuan plan ∧
          plan.intent.hard.maxTotalCostYuan = none ∧ ¬ request.confirmed costConfirmationKey then
        [costQuestion plan]
      else []].flatten.take 2

namespace AIPlanResult

/-- The result put back to the user with questions. -/
def clarify (result : AIPlanResult) (questions : List ClarificationQuestion) : AIPlanResult :=
  { result with
    plan := { result.plan with status := .needClarification }
    planningState := .needClarification
    questions := questions }

def unreviewed (result : AIPlanResult) : AIPlanResult :=
  result.clarify [{
    field := "critic_review"
    reason := "Critic Agent 未能在工作流预算内完成审阅"
    question := "方案审阅暂不可用，是否稍后重试规划？" }]

/-- `_enforce_review` -/
def enforceReview (result : AIPlanResult) (review : ReviewReport) : AIPlanResult :=
  match review.verdict with
  | .needsClarification => result.clarify [{
      field := "critic_review"
      reason := review.summary
      question := "方案证据仍不完整，是否补充地点或偏好后重新规划？" }]
  | .approvedWithWarnings =>
      let raised := review.findings.filter fun finding => finding.severity = .warning
      { result with warnings := result.warnings ++ raised.map ReviewFinding.message }
  | .retryWithSoftAdjustments =>
      { result with
        warnings := result.warnings ++ ["已达到 Critic 软重算上限，保留通过硬约束校验的方案"] }
  | .approved => result

def underReview (mode : AgentWorkflowMode) (result : AIPlanResult) (review : ReviewReport) :
    AIPlanResult :=
  if mode = .enforce then result.enforceReview review else result

/-- The confirmation gate of a successful plan. -/
def confirm (request : AIPlanRequest) (result : AIPlanResult) : AIPlanResult :=
  let questions := selectHumanConfirmationQuestions request result.plan
  if result.status = .success ∧ questions ≠ [] then
    let asked := result.clarify questions
    { asked with warnings := asked.warnings ++ ["方案触发 Human-in-the-loop 人工确认门槛"] }
  else result

end AIPlanResult

/-- The outcomes of the stages of one run. -/
structure Script where
  start : Outcome Unit
  understand : Outcome (PlanIntent × List ClarificationQuestion)
  planNext : Outcome Unit
  firstSolve : SolveOutcome
  firstReview : Outcome ReviewReport
  scheduled : Option Unit
  secondSolve : SolveOutcome
  secondReview : Outcome ReviewReport
  finalize : Outcome Unit

def PlanIntent.graph (intent : PlanIntent) : List AgentPlanStep :=
  buildExecutionPlan intent.safetySensitive intent.weatherRequired

namespace Script
variable (script : Script)

def intake (settings : Settings) :
    Except Stop ((PlanIntent × List ClarificationQuestion) × Orchestrator) := do
  let o ← (Orchestrator.fresh settings).start script.start
  o.understand script.understand

def solve (o : Orchestrator) (intent : PlanIntent) : Except Stop (AIPlanResult × Orchestrator) := do
  let o ← o.planNext script.planNext
  o.executePlanningStages intent.graph script.firstSolve

/-- The solve after a soft adjustment. -/
def solveAgain (o : Orchestrator) (intent : PlanIntent) (review : ReviewReport) :
    Except Stop (AIPlanResult × Orchestrator) := do
  let o ← o.applySoftAdjustments review script.scheduled
  o.executePlanningStages intent.graph script.secondSolve

/-- The review of a retry; without one the first review stays. -/
def reviewAgain (o : Orchestrator) (result : AIPlanResult) (review : ReviewReport) :
    Except Stop (AIPlanResult × Orchestrator) := do
  let (secondReview, o) ← o.review result.plan script.secondReview
  match secondReview with
  | none => return (result.underReview o.settings.mode review, o)
  | some second =>
      return ({ result with criticReview := some second }.underReview o.settings.mode second, o)

/-- Everything from the first review to the enforced verdict. -/
def reviewed (o : Orchestrator) (intent : PlanIntent) (result : AIPlanResult) :
    Except Stop (AIPlanResult × Orchestrator) := do
  let (review, o) ← o.review result.plan script.firstReview
  match review with
  | none => return (if o.settings.mode = .enforce then result.unreviewed else result, o)
  | some review =>
      if review.verdict = .retryWithSoftAdjustments ∧ o.retryAllowed then do
        let (result, o) ← script.solveAgain o intent review
        script.reviewAgain o result review
      else
        return ({ result with criticReview := some review }.underReview o.settings.mode review, o)

def finish (o : Orchestrator) (result : AIPlanResult) :
    Except Stop (AIPlanResult × Orchestrator) := do
  let o ← o.finalize script.finalize
  return (result, o)

/-- `PlanningService._plan` -/
def plan (settings : Settings) (request : AIPlanRequest) :
    Except Stop (AIPlanResult × Orchestrator) := do
  let ((intent, requiredQuestions), o) ← script.intake settings
  if requiredQuestions ≠ [] then
    script.finish o {
      plan := { status := .needClarification, intent := intent }
      planningState := .needClarification
      questions := requiredQuestions }
  else
    let (result, o) ← script.solve o intent
    if result.status = .needClarification then script.finish o result
    else
      let (result, o) ← script.reviewed o intent result
      script.finish o (result.confirm request)

end Script
end MapGo.Planning
