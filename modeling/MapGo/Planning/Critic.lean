import MapGo.Planning.Evaluation

/-! The two critics. The rule-based one reads evidence, evaluation and the rating preference of a
plan; the model-based one merges the evaluation into the report of a model, and falls back to
the rules when the model gives no valid report within its token limits. -/
namespace MapGo.Planning

/-- `f"poi:{poi.get('id')}"` and the place of the stop. -/
def stopRefs (index : Nat) (stop : PlanStop) : List String :=
  ["poi:" ++ stop.poi.id.getD "None", "stop:" ++ toString index]

/-- The findings on the evidence of one stop, counted from 0. -/
def stopEvidence (index : Nat) (stop : PlanStop) : List ReviewFinding :=
  let refs := stopRefs index stop
  let position := "第 " ++ toString (index + 1)
  (if stop.poi.id.getD "" = "" ∨ stop.poi.source.getD "" = "" ∨ stop.poi.source = some "unknown" then
    [⟨"poi_evidence_missing", .blocking, position ++ " 站缺少可追溯 POI 来源", refs⟩] else []) ++
  (if stop.travel.fallbackUsed then
    [⟨"route_estimated", .warning, position ++ " 段路线使用估算数据", refs⟩] else []) ++
  if number stop.travel.confidence < 3 / 5 then
    [⟨"route_low_confidence", .warning, position ++ " 段路线置信度偏低", refs⟩] else []

/-- The evidence checks of the rules. -/
def evidenceFindings (plan : Plan) : List ReviewFinding :=
  (if plan.status = .success ∧ plan.stops = [] then
    [⟨"empty_success", .blocking, "成功方案没有站点证据", []⟩] else []) ++
  (if plan.explanation.getD "" = "" then
    [⟨"missing_explanation", .warning, "方案缺少可读解释", []⟩] else []) ++
  (plan.stops.mapIdx stopEvidence).flatten

/-- The evaluation that both critics make of a successful plan. -/
def reviewedEvaluation (plan : Plan) : Option AgentRouteEvaluation :=
  if plan.status = .success then some (evaluateRoutePlan plan (runtimeRoutePolicy plan)) else none

def AgentRouteEvaluation.summary (e : AgentRouteEvaluation) : RouteEvaluationSummary where
  distanceScore := e.distanceScore
  timeScore := e.timeScore
  preferenceScore := e.preferenceScore
  finalScore := e.finalScore
  passed := e.passed
  hardFailures := e.hardFailures

/-- The blocking findings and the warnings of the evaluation, as review findings. -/
def AgentRouteEvaluation.reviewFindings (e : AgentRouteEvaluation) : List ReviewFinding :=
  (e.findings.filter fun finding => finding.severity ≠ .info).map fun finding =>
    ⟨"route_eval_" ++ finding.code, finding.severity, finding.message, []⟩

/-- All findings of the deterministic checks. -/
def checkFindings (plan : Plan) : List ReviewFinding :=
  evidenceFindings plan ++ ((reviewedEvaluation plan).map
    AgentRouteEvaluation.reviewFindings).getD []

/-- The user prefers high ratings and some candidate is a full point above some stop. -/
def ratingMismatch (plan : Plan) : Bool :=
  let selected := plan.stops.map fun stop => number stop.poi.rating
  let candidates := plan.candidateRatings.map number
  decide (plan.status = .success) && plan.intent.preferences.preferHighRating &&
    candidates.any fun best => selected.any fun worst => decide (1 ≤ best - worst)

def ratingFinding : ReviewFinding :=
  ⟨"rating_preference_mismatch", .warning, "存在明显更高评分候选，建议仅提高评分软权重后重算", []⟩

/-- The verdict on the findings alone. -/
def findingsVerdict (findings : List ReviewFinding) : Verdict :=
  if findings.any fun finding => finding.severity = .blocking then .needsClarification
  else if findings = [] then .approved else .approvedWithWarnings

/-- `RuleBasedCriticAgent.run` -/
def ruleBasedReview (plan : Plan) : ReviewReport :=
  let findings := checkFindings plan
  if ratingMismatch plan then
    { verdict := .retryWithSoftAdjustments
      summary := "审阅发现 " ++ toString (findings.length + 1) ++ " 项需要关注的问题"
      findings := (findings ++ [ratingFinding]).take 30
      suggestedAdjustments := some { lowRating := some (3 / 2) }
      routeEvaluation := (reviewedEvaluation plan).map AgentRouteEvaluation.summary
      confidence := 9 / 10
      retryBoundary := fun _ => ⟨_, rfl, by decide⟩
      softBoundary := fun other => absurd rfl other }
  else
    { verdict := findingsVerdict findings
      summary :=
        if findingsVerdict findings = .approved then "方案证据和偏好审阅通过"
        else "审阅发现 " ++ toString findings.length ++ " 项需要关注的问题"
      findings := findings.take 30
      routeEvaluation := (reviewedEvaluation plan).map AgentRouteEvaluation.summary
      confidence := 9 / 10
      retryBoundary := by
        intro retry
        simp only [findingsVerdict] at retry
        split at retry
        · contradiction
        · split at retry <;> contradiction
      softBoundary := fun _ => rfl }

/-- What comes of the call to the model: an error that the critic catches, one that it does not,
or a report that passes the schema. -/
inductive ModelResponse where
  | failed
  | raised
  | answer (report : ReviewReport) (inputTokens outputTokens : Nat)

structure CriticLimits where
  maxCriticInputTokens : Nat
  maxCriticOutputTokens : Nat

/-- The report of the model that the critic accepts. -/
def ModelResponse.accepted (limits : CriticLimits) : ModelResponse → Option ReviewReport
  | .answer report input output =>
      if limits.maxCriticInputTokens < input ∨ limits.maxCriticOutputTokens < output then none
      else some report
  | _ => none

/-- The report of the model with the evaluation of a successful plan. -/
def mergeEvaluation (report : ReviewReport) (evaluation : AgentRouteEvaluation) : ReviewReport :=
  let combined := (evaluation.reviewFindings ++ report.findings).take 30
  if evaluation.hardFailures ≠ [] then
    { report with
      verdict := .needsClarification
      findings := combined
      suggestedAdjustments := none
      routeEvaluation := some evaluation.summary
      retryBoundary := fun retry => Verdict.noConfusion retry
      softBoundary := fun _ => rfl }
  else if warned : evaluation.reviewFindings ≠ [] ∧ report.verdict = .approved then
    { report with
      verdict := .approvedWithWarnings
      findings := combined
      routeEvaluation := some evaluation.summary
      retryBoundary := fun retry => Verdict.noConfusion retry
      softBoundary := fun _ => report.softBoundary (warned.2 ▸ fun same => Verdict.noConfusion same) }
  else { report with findings := combined, routeEvaluation := some evaluation.summary }

/-- `OpenAICompatibleCriticAgent.run`; `none` when it raises. -/
def modelReview (limits : CriticLimits) (plan : Plan) (response : ModelResponse) :
    Option ReviewReport :=
  match response with
  | .raised => none
  | response => some <| match response.accepted limits with
    | none => ruleBasedReview plan
    | some report => match reviewedEvaluation plan with
      | none => report
      | some evaluation => mergeEvaluation report evaluation

/-- The checks of the rules or the evaluation find something that blocks the plan. -/
def Blocked (plan : Plan) : Prop := ∃ finding ∈ checkFindings plan, finding.severity = .blocking

section

variable {plan : Plan} {response : ModelResponse} {limits : CriticLimits} {report : ReviewReport}

theorem reviewFindings_blocking {e : AgentRouteEvaluation} :
    (∃ finding ∈ e.reviewFindings, finding.severity = .blocking) ↔
      ∃ finding ∈ e.findings, finding.severity = .blocking := by
  simp only [AgentRouteEvaluation.reviewFindings, List.mem_map, List.mem_filter]
  constructor
  · rintro ⟨_, ⟨finding, ⟨member, -⟩, rfl⟩, block⟩
    exact ⟨finding, member, block⟩
  · rintro ⟨finding, member, block⟩
    exact ⟨_, ⟨finding, ⟨member, by simp [block]⟩, rfl⟩, block⟩

theorem findingsVerdict_blocked {findings : List ReviewFinding} :
    findingsVerdict findings = .needsClarification ↔
      ∃ finding ∈ findings, finding.severity = .blocking := by
  simp only [findingsVerdict]
  split
  · rename_i some_
    simpa using some_
  · rename_i none
    split <;> simpa using none

/-- The rules give way to the rating preference. -/
theorem ruleBasedReview_verdict : (ruleBasedReview plan).verdict = .needsClarification ↔
    Blocked plan ∧ ratingMismatch plan = false := by
  simp only [ruleBasedReview, Blocked]
  split
  · rename_i mismatch
    simp [mismatch]
  · rename_i agrees
    simpa [agrees] using findingsVerdict_blocked

/-- A report with a blocking finding. -/
def ReviewReport.Blocking (report : ReviewReport) : Prop :=
  ∃ finding ∈ report.findings, finding.severity = .blocking

/-- The evaluation of the plan has a hard failure. -/
def HardFailing (plan : Plan) : Prop :=
  ∃ evaluation, reviewedEvaluation plan = some evaluation ∧ evaluation.hardFailures ≠ []

/-- When the model-based critic cannot miss a blocking finding: it falls back to rules that no
rating overrides, or the evaluation or the model itself blocks, or there is nothing to block. -/
def ModelSettles (limits : CriticLimits) (plan : Plan) (response : ModelResponse) : Prop :=
  match response, response.accepted limits with
  | .raised, _ => True
  | _, none => ¬ (Blocked plan ∧ ratingMismatch plan = true)
  | _, some report =>
      HardFailing plan ∨ report.verdict = .needsClarification ∨
        (¬ Blocked plan ∧ ¬ report.Blocking)

theorem mergeEvaluation_verdict {e : AgentRouteEvaluation} :
    (mergeEvaluation report e).verdict = .needsClarification ↔
      e.hardFailures ≠ [] ∨ report.verdict = .needsClarification := by
  simp only [mergeEvaluation]
  split
  · simp_all
  · split
    · simp_all
    · simp_all

/-- A hard failure is one of the blocking findings. -/
theorem HardFailing.blocked (failing : HardFailing plan) : Blocked plan := by
  obtain ⟨evaluation, evaluated, failures⟩ := failing
  have same : evaluation = evaluateRoutePlan plan (runtimeRoutePolicy plan) := by
    simp only [reviewedEvaluation] at evaluated
    split at evaluated
    · exact (Option.some.inj evaluated).symm
    · contradiction
  obtain ⟨finding, member, block⟩ :=
    reviewFindings_blocking.mpr (evaluateRoutePlan_hardFailures.mp (same ▸ failures))
  refine ⟨finding, ?_, block⟩
  simp only [checkFindings, evaluated, Option.map_some, Option.getD_some]
  exact List.mem_append_right _ (same ▸ member)

theorem modelReview_accepted (plan : Plan) (accepted : response.accepted limits = some report) :
    ∃ merged, modelReview limits plan response = some merged ∧
      (merged.verdict = .needsClarification ↔
        HardFailing plan ∨ report.verdict = .needsClarification) := by
  cases response with
  | failed => contradiction
  | raised => contradiction
  | answer =>
      simp only [modelReview, accepted]
      cases evaluated : reviewedEvaluation plan with
      | none => exact ⟨_, rfl, by simp [HardFailing, evaluated]⟩
      | some evaluation =>
          exact ⟨_, rfl, mergeEvaluation_verdict.trans (by simp [HardFailing, evaluated])⟩

/-- Blocking findings block in the model-based critic exactly where it settles them. -/
theorem modelReview_blocks_iff :
    (∀ merged, modelReview limits plan response = some merged →
      (Blocked plan ∨ ∃ own, response.accepted limits = some own ∧ own.Blocking) →
        merged.verdict = .needsClarification) ↔ ModelSettles limits plan response := by
  cases accepted : response.accepted limits with
  | some own =>
      obtain ⟨merged, reviewed, verdict⟩ := modelReview_accepted plan accepted
      have settles : ModelSettles limits plan response ↔ HardFailing plan ∨
          own.verdict = .needsClarification ∨ (¬ Blocked plan ∧ ¬ own.Blocking) := by
        cases response with
        | failed => contradiction
        | raised => contradiction
        | answer => simp only [ModelSettles, accepted]
      rw [reviewed, settles]
      simp only [Option.some.injEq, forall_eq', exists_eq_left', verdict]
      tauto
  | none =>
      cases response with
      | raised => simp [modelReview, ModelSettles]
      | failed =>
          simp only [modelReview, accepted, ModelSettles, Option.some.injEq, forall_eq',
            ruleBasedReview_verdict]
          cases ratingMismatch plan <;> simp
      | answer given input output =>
          simp only [modelReview, accepted, ModelSettles, Option.some.injEq, forall_eq',
            ruleBasedReview_verdict]
          cases ratingMismatch plan <;> simp

end

end MapGo.Planning
