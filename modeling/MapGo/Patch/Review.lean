import MapGo.Patch.Replan

/-! The critic's deterministic review of a dynamic patch: hard-constraint and evidence
gaps block it, operations and cost set its risk. -/
namespace MapGo.Patch

structure PlanPatchArtifact where
  patchId : Option Nat
  baseVersion : Nat
  operations : List Operation
  impact : Impact
  status : String
  deriving DecidableEq, Repr

/-- `PlanPatchOperation.validate_operation_arguments` -/
def Operation.valid : Operation → Bool
  | .removeStop stopId => stopId.any (· ≠ "")
  | .moveStop source target => source.isSome && target.isSome
  | .replaceStop stopId replacement => stopId.any (· ≠ "") && replacement.isSome
  | .changeTransportMode mode => mode.isSome
  | .changeDepartureTime (.aware _) => true
  | .changeDepartureTime _ => false

/-- The limits and checks of the artifact's schema. -/
def PlanPatchArtifact.valid (artifact : PlanPatchArtifact) : Bool :=
  artifact.operations.all Operation.valid && decide (artifact.operations.length ≤ 20) &&
    !(artifact.status = "patch_pending_confirmation" && artifact.patchId.isNone)

/-- The loop variables of `review_dynamic_patch`. -/
structure ReviewState where
  findings : List String
  blocking : Bool
  riskRank : Nat

/-- The last stop with an id decides whether it is required. -/
def requiredById (base : Snapshot) (stopId : Option String) : Bool :=
  ((base.stops.reverse.find? fun stop => some stop.poi.id = stopId).map
    fun stop => stop.task.required).getD true

def reviewOperation (base : Snapshot) (completed : List String) (state : ReviewState) :
    Operation → ReviewState
  | .removeStop stopId =>
      let state := { state with riskRank := max state.riskRank 2 }
      if requiredById base stopId ∧ stopId.all (· ∉ completed) then
        { state with
          findings := state.findings ++ ["required_stop_removal_forbidden"]
          blocking := true }
      else state
  | .moveStop _ _ => state
  | .replaceStop _ replacement =>
      let state := { state with riskRank := max state.riskRank 2 }
      let evidence := replacement.bind Replacement.poi
      if evidence.all fun poi => poi.id = "" ∨ poi.source = "" then
        { state with
          findings := state.findings ++ ["replacement_poi_evidence_missing"]
          blocking := true }
      else state
  | .changeTransportMode _ =>
      { state with
        riskRank := max state.riskRank 2
        findings := state.findings ++ ["transport_mode_changed"] }
  | .changeDepartureTime _ => { state with riskRank := max state.riskRank 1 }

def reportedConflicts (impact : Impact) : List String :=
  (impact.after.map ImpactAfter.constraintConflicts).getD []

/-- The impact names no other base version than the patch. -/
def baseMatches (baseVersion : Nat) (impact : Impact) : Bool :=
  impact.before.all fun before => before.planVersion.getD (-1) = (baseVersion : Int)

/-- The findings on the reported impact, before the operations. -/
def reviewImpact (artifact : PlanPatchArtifact) : ReviewState :=
  let state : ReviewState :=
    if reportedConflicts artifact.impact = [] then ⟨[], false, 0⟩
    else ⟨["deterministic_constraint_conflict"], true, 0⟩
  if baseMatches artifact.baseVersion artifact.impact then state
  else { state with
    findings := state.findings ++ ["base_version_evidence_mismatch"]
    blocking := true }

/-- A rise of the estimated cost by more than 20 yuan and a tenth. -/
def materialCostIncrease (impact : Impact) : Bool :=
  let before := (impact.before.bind ImpactBefore.estimatedCostYuan).getD 0
  let after := (impact.after.bind ImpactAfter.estimatedCostYuan).getD 0
  before + max 20 (before / 10) < after

def ReviewState.verdict (state : ReviewState) : Verdict :=
  if state.blocking then .blocked
  else if state.riskRank = 0 then .approved else .approvedWithWarnings

def ReviewState.riskLevel (state : ReviewState) : RiskLevel :=
  if state.blocking then .critical
  else match state.riskRank with
    | 0 => .low
    | 1 => .medium
    | _ => .high

/-- The state after operations and cost. -/
def reviewState (base : Snapshot) (artifact : PlanPatchArtifact) : ReviewState :=
  let completed := (artifact.impact.changes.map ImpactChanges.completedStopIds).getD []
  let state := artifact.operations.foldl (reviewOperation base completed) (reviewImpact artifact)
  if materialCostIncrease artifact.impact then
    { state with
      findings := state.findings ++ ["material_cost_increase"]
      riskRank := max state.riskRank 2 }
  else state

def reviewDynamicPatch (base : Snapshot) (artifact : PlanPatchArtifact) : DynamicPatchReview :=
  let state := reviewState base artifact
  { verdict := state.verdict
    riskLevel := state.riskLevel
    requiresConfirmation := 2 ≤ state.riskRank ∨ state.blocking = true
    findings :=
      if state.findings = [] then ["deterministic_patch_checks_passed"] else state.findings
    checkedBaseVersion := artifact.baseVersion
    operationCount := artifact.operations.length }

/-- Verdict and risk under which a patch may be applied without the user. -/
def DynamicPatchReview.autoApplyEligible (review : DynamicPatchReview) : Bool :=
  decide (review.riskLevel = .low) && decide (review.verdict = .approved)

def Operation.isMove : Operation → Bool
  | .moveStop _ _ => true
  | _ => false

/-- The impact alone raises no risk: no conflict, the right base, no material cost. -/
def impactClean (baseVersion : Nat) (impact : Impact) : Bool :=
  (reportedConflicts impact).isEmpty && baseMatches baseVersion impact &&
    !materialCostIncrease impact

section

variable {base : Snapshot} {completed : List String} {state : ReviewState}

/-- An operation leaves the review without risk only if it is a move. -/
theorem reviewOperation_calm {operation : Operation} :
    ((reviewOperation base completed state operation).blocking = false ∧
        (reviewOperation base completed state operation).riskRank = 0) ↔
      (state.blocking = false ∧ state.riskRank = 0) ∧ operation.isMove = true := by
  cases operation with
  | removeStop stopId =>
      simp only [reviewOperation, Operation.isMove, Bool.false_eq_true, and_false, iff_false]
      split <;> simp
  | moveStop source target => simp [reviewOperation, Operation.isMove]
  | replaceStop stopId replacement =>
      simp only [reviewOperation, Operation.isMove, Bool.false_eq_true, and_false, iff_false]
      split <;> simp
  | changeTransportMode mode => simp [reviewOperation, Operation.isMove]
  | changeDepartureTime departure => simp [reviewOperation, Operation.isMove]

theorem reviewOperations_calm {operations : List Operation} :
    ((operations.foldl (reviewOperation base completed) state).blocking = false ∧
        (operations.foldl (reviewOperation base completed) state).riskRank = 0) ↔
      (state.blocking = false ∧ state.riskRank = 0) ∧ ∀ op ∈ operations, op.isMove = true := by
  induction operations generalizing state with
  | nil => simp
  | cons operation operations ih =>
      rw [List.foldl_cons, ih, reviewOperation_calm, List.forall_mem_cons, and_assoc]

theorem reviewImpact_calm {artifact : PlanPatchArtifact} :
    ((reviewImpact artifact).blocking = false ∧ (reviewImpact artifact).riskRank = 0) ↔
      reportedConflicts artifact.impact = [] ∧
        baseMatches artifact.baseVersion artifact.impact = true := by
  by_cases clear : reportedConflicts artifact.impact = [] <;>
    cases same : baseMatches artifact.baseVersion artifact.impact <;>
      simp [reviewImpact, clear, same]

theorem ReviewState.low_iff :
    state.riskLevel = .low ∧ state.verdict = .approved ↔
      state.blocking = false ∧ state.riskRank = 0 := by
  obtain ⟨findings, blocking, rank⟩ := state
  simp only [riskLevel, verdict]
  cases blocking with
  | true => simp
  | false =>
      cases rank with
      | zero => simp
      | succ rank => simp

/-- A review finds low risk exactly when the impact raises none and every operation is a move. -/
theorem autoApplyEligible_iff {artifact : PlanPatchArtifact} :
    (reviewDynamicPatch base artifact).autoApplyEligible = true ↔
      impactClean artifact.baseVersion artifact.impact = true ∧
        ∀ op ∈ artifact.operations, op.isMove = true := by
  have low : (reviewDynamicPatch base artifact).autoApplyEligible = true ↔
      (reviewState base artifact).blocking = false ∧ (reviewState base artifact).riskRank = 0 := by
    rw [DynamicPatchReview.autoApplyEligible, Bool.and_eq_true, decide_eq_true_eq,
      decide_eq_true_eq]
    exact ReviewState.low_iff
  rw [low, impactClean, reviewState]
  cases costs : materialCostIncrease artifact.impact with
  | true => simp
  | false =>
      simp only [Bool.false_eq_true, ↓reduceIte, reviewOperations_calm, reviewImpact_calm,
        Bool.and_eq_true, List.isEmpty_iff, Bool.not_false, and_true]

end

end MapGo.Patch
