import MapGo.Agents.ToolLoop

/-! What a run of the tool loop is said to cost. The tokens of all decisions are multiplied by the
prices of the last one, so that a change of price is charged on the tokens before it too. -/
namespace MapGo.Agents

open Exits

/-- The sums of a number and the first items of a list. -/
def runningSums : ℚ → List ℚ → List ℚ
  | _, [] => []
  | total, cost :: costs => (total + cost) :: runningSums (total + cost) costs

theorem runningSums_pairwise {total : ℚ} {costs : List ℚ} :
    (total :: runningSums total costs).Pairwise (· ≤ ·) ↔ ∀ cost ∈ costs, 0 ≤ cost := by
  induction costs generalizing total with
  | nil => simp [runningSums]
  | cons cost costs ih =>
      have later : ((total + cost) :: runningSums (total + cost) costs).Pairwise (· ≤ ·) ↔
          ∀ cost ∈ costs, 0 ≤ cost := ih
      rw [runningSums, List.pairwise_cons, later, List.forall_mem_cons, List.forall_mem_cons]
      constructor
      · rintro ⟨⟨next, _⟩, rest⟩
        exact ⟨by linarith, rest⟩
      · rintro ⟨nonneg, rest⟩
        have next : total ≤ total + cost := by linarith
        refine ⟨⟨next, ?_⟩, rest⟩
        intro other member
        exact next.trans ((List.pairwise_cons.mp (later.mpr rest)).1 other member)

theorem getLastD_runningSums {total : ℚ} {costs : List ℚ} :
    (runningSums total costs).getLastD total = total + costs.sum := by
  induction costs generalizing total with
  | nil => simp [runningSums]
  | cons cost costs ih =>
      rw [runningSums, List.getLastD_cons, ih, List.sum_cons, add_assoc]

/-- The decisions of a run, in order. -/
def decisions (deeds : List Deed) : List DecisionResult :=
  deeds.filterMap fun deed =>
    match deed with
    | .decided result _ => some result
    | .executed .. => none

/-- The costs that the budget checks of a run have seen. -/
def estimates (deeds : List Deed) : List ℚ :=
  deeds.filterMap fun deed =>
    match deed with
    | .decided _ totals => some totals.estimatedCost
    | .executed .. => none

section prices
variable (settings : RuntimeSettings)

/-- The price of an input token; the configured one where a decision reports none. -/
def inputPrice (result : DecisionResult) : ℚ :=
  if result.inputCostPerMillionUsd ≠ 0 then result.inputCostPerMillionUsd
  else settings.llmInputCostPerMillionUsd

def outputPrice (result : DecisionResult) : ℚ :=
  if result.outputCostPerMillionUsd ≠ 0 then result.outputCostPerMillionUsd
  else settings.llmOutputCostPerMillionUsd

/-- The tokens of a decision at the prices of the model that made it. -/
def ownCost (result : DecisionResult) : ℚ :=
  (result.inputTokens * inputPrice settings result +
    result.outputTokens * outputPrice settings result) / 1000000

/-- Every later decision costs no less than nothing, and the tokens before it cost as much at its
prices as at the prices before. -/
def Steady (inputTokens outputTokens : Int) (before : DecisionResult) :
    List DecisionResult → Prop
  | [] => True
  | result :: results =>
      inputTokens * (inputPrice settings result - inputPrice settings before) +
          outputTokens * (outputPrice settings result - outputPrice settings before) = 0 ∧
        0 ≤ ownCost settings result ∧
        Steady (inputTokens + result.inputTokens) (outputTokens + result.outputTokens) result results

/-- The prices of a run do not matter for the tokens before them. -/
def SteadyRun : List DecisionResult → Prop
  | [] => True
  | result :: results => Steady settings result.inputTokens result.outputTokens result results

/-- What the budget checks see after so many tokens. -/
def estimatesFrom (inputTokens outputTokens : Int) : List DecisionResult → List ℚ
  | [] => []
  | result :: results =>
      AgentRuntime.estimatedCost settings (inputTokens + result.inputTokens)
          (outputTokens + result.outputTokens) result.inputCostPerMillionUsd
          result.outputCostPerMillionUsd ::
        estimatesFrom (inputTokens + result.inputTokens) (outputTokens + result.outputTokens) results

end prices

variable {settings : RuntimeSettings} {inputTokens outputTokens : Int}

theorem estimatedCost_eq (result : DecisionResult) :
    AgentRuntime.estimatedCost settings inputTokens outputTokens result.inputCostPerMillionUsd
        result.outputCostPerMillionUsd =
      (inputTokens * inputPrice settings result +
        outputTokens * outputPrice settings result) / 1000000 := rfl

/-- The estimates are the sums of the own costs, and no cost is negative, just when the prices
are steady. -/
theorem steady_iff {before : DecisionResult} {results : List DecisionResult} {total : ℚ}
    (charged : total = AgentRuntime.estimatedCost settings inputTokens outputTokens
      before.inputCostPerMillionUsd before.outputCostPerMillionUsd) :
    Steady settings inputTokens outputTokens before results ↔
      estimatesFrom settings inputTokens outputTokens results =
          runningSums total (results.map (ownCost settings)) ∧
        ∀ cost ∈ results.map (ownCost settings), 0 ≤ cost := by
  induction results generalizing inputTokens outputTokens before total with
  | nil => simp [Steady, estimatesFrom, runningSums]
  | cons result results ih =>
      rw [Steady, estimatesFrom, List.map_cons, runningSums, List.forall_mem_cons,
        List.cons.injEq]
      -- The estimate is the sum so far just when the old tokens cost the same at the new prices.
      have head : inputTokens * (inputPrice settings result - inputPrice settings before) +
            outputTokens * (outputPrice settings result - outputPrice settings before) = 0 ↔
          AgentRuntime.estimatedCost settings (inputTokens + result.inputTokens)
              (outputTokens + result.outputTokens) result.inputCostPerMillionUsd
              result.outputCostPerMillionUsd = total + ownCost settings result := by
        rw [charged, estimatedCost_eq, estimatedCost_eq, ownCost, ← add_div,
          div_left_inj' (by norm_num)]
        push_cast
        constructor <;> intro same <;> linarith
      constructor
      · rintro ⟨drift, nonneg, steady⟩
        obtain ⟨rest, others⟩ := (ih (head.mp drift).symm).mp steady
        exact ⟨⟨head.mp drift, rest⟩, nonneg, others⟩
      · rintro ⟨⟨first, rest⟩, nonneg, others⟩
        exact ⟨head.mpr first, nonneg, (ih first.symm).mpr ⟨rest, others⟩⟩

/-- A further decision adds an estimate of all tokens. -/
theorem estimatesFrom_concat {results : List DecisionResult} {result : DecisionResult} :
    estimatesFrom settings inputTokens outputTokens (results ++ [result]) =
      estimatesFrom settings inputTokens outputTokens results ++
        [AgentRuntime.estimatedCost settings
          (inputTokens + ((results ++ [result]).map DecisionResult.inputTokens).sum)
          (outputTokens + ((results ++ [result]).map DecisionResult.outputTokens).sum)
          result.inputCostPerMillionUsd result.outputCostPerMillionUsd] := by
  induction results generalizing inputTokens outputTokens with
  | nil => simp [estimatesFrom]
  | cons first results ih =>
      simp only [List.cons_append, estimatesFrom, ih, List.map_cons, List.sum_cons, add_assoc]

/-- The first estimate is always the own cost of the first decision. -/
theorem steadyRun_iff {results : List DecisionResult} :
    SteadyRun settings results ↔
      estimatesFrom settings 0 0 results = runningSums 0 (results.map (ownCost settings)) ∧
        (estimatesFrom settings 0 0 results).Pairwise (· ≤ ·) := by
  cases results with
  | nil => simp [SteadyRun, estimatesFrom, runningSums]
  | cons result results =>
      have charged : ownCost settings result = AgentRuntime.estimatedCost settings
          result.inputTokens result.outputTokens result.inputCostPerMillionUsd
          result.outputCostPerMillionUsd := (estimatedCost_eq result).symm
      rw [SteadyRun, steady_iff charged, estimatesFrom, List.map_cons, runningSums, zero_add,
        zero_add, zero_add, ← charged, List.cons.injEq]
      constructor
      · rintro ⟨sums, nonneg⟩
        refine ⟨⟨rfl, sums⟩, ?_⟩
        rw [sums]
        exact runningSums_pairwise.mpr nonneg
      · rintro ⟨⟨_, sums⟩, ordered⟩
        rw [sums] at ordered
        exact ⟨sums, runningSums_pairwise.mp ordered⟩

/-- The invariant of the totals. -/
structure Counted (settings : RuntimeSettings) (s : RunState) : Prop where
  inputTokens : s.inputTokens = ((decisions s.deeds).map DecisionResult.inputTokens).sum
  outputTokens : s.outputTokens = ((decisions s.deeds).map DecisionResult.outputTokens).sum
  estimates : estimates s.deeds = estimatesFrom settings 0 0 (decisions s.deeds)
  /-- The cost that would be reported now. -/
  reported : AgentRuntime.estimatedCost settings s.inputTokens s.outputTokens
    s.inputCostPerMillionUsd s.outputCostPerMillionUsd = (MapGo.Agents.estimates s.deeds).getLastD 0

namespace Counted
variable {s : RunState}

theorem init (settings : RuntimeSettings) (observation : Dict) :
    Counted settings { observation := observation } where
  inputTokens := rfl
  outputTokens := rfl
  estimates := rfl
  reported := by simp [AgentRuntime.estimatedCost, MapGo.Agents.estimates]

theorem ambient : AgentRuntime.Ambient (Counted settings) :=
  fun _ _ _ _ _ counted => ⟨counted.inputTokens, counted.outputTokens, counted.estimates,
    counted.reported⟩

theorem appendStep (counted : Counted settings s) (step : AgentRuntimeStep) :
    Counted settings { s with steps := s.steps ++ [step] } :=
  ⟨counted.inputTokens, counted.outputTokens, counted.estimates, counted.reported⟩

/-- Calls cost nothing. -/
theorem executed (counted : Counted settings s) (tool : String) (arguments : Dict)
    (succeeded : Bool) :
    Counted settings { s with deeds := s.deeds ++ [.executed tool arguments succeeded] } := by
  have same : decisions (s.deeds ++ [.executed tool arguments succeeded]) = decisions s.deeds := by
    simp [decisions]
  have costs : MapGo.Agents.estimates (s.deeds ++ [.executed tool arguments succeeded]) =
      MapGo.Agents.estimates s.deeds := by
    simp [MapGo.Agents.estimates]
  obtain ⟨inputTokens, outputTokens, estimates, reported⟩ := counted
  refine ⟨?_, ?_, ?_, ?_⟩
  · simpa only [same] using inputTokens
  · simpa only [same] using outputTokens
  · simpa only [same, costs] using estimates
  · simpa only [costs] using reported

end Counted

namespace AgentRuntime
variable {runtime : AgentRuntime} {request : AgentRuntimeRequest} {toolExecutor : ToolExecutor}

theorem keeps_account (result : DecisionResult) :
    Keeps (Counted runtime.settings) (runtime.account result) := by
  apply ends_modifyGet
  intro s counted
  have decided (totals : Totals) :
      decisions (s.deeds ++ [.decided result totals]) = decisions s.deeds ++ [result] := by
    simp [decisions]
  have costs (totals : Totals) : MapGo.Agents.estimates (s.deeds ++ [.decided result totals]) =
      MapGo.Agents.estimates s.deeds ++ [totals.estimatedCost] := by
    simp [MapGo.Agents.estimates]
  have input : s.inputTokens + result.inputTokens =
      ((decisions s.deeds ++ [result]).map DecisionResult.inputTokens).sum := by
    rw [counted.inputTokens]
    simp
  have output : s.outputTokens + result.outputTokens =
      ((decisions s.deeds ++ [result]).map DecisionResult.outputTokens).sum := by
    rw [counted.outputTokens]
    simp
  refine ⟨?_, ?_, ?_, ?_⟩
  · simpa only [decided] using input
  · simpa only [decided] using output
  · simp only [decided, costs, estimatesFrom_concat, counted.estimates, input, output, zero_add]
  · simp only [costs, List.getLastD_concat]

theorem keeps_appendStep (step : AgentRuntimeStep) :
    Keeps (Counted runtime.settings) (AgentRuntime.appendStep step) :=
  ends_appendStep (fun _ counted => counted.appendStep step) fun _ counted => counted

theorem keeps_recordTool (step : AgentRuntimeStep) (tool : String) :
    Keeps (Counted runtime.settings) (runtime.recordTool step tool) :=
  ends_recordTool Counted.ambient (fun _ counted => counted.appendStep step)
    (fun _ counted => counted) fun _ counted => counted

theorem keeps_executeTool (tool : String) (arguments : Dict) :
    Keeps (Counted settings) (executeTool toolExecutor tool arguments) := by
  have noted (succeeded : Bool) :
      Keeps (Counted settings) (note (.executed tool arguments succeeded)) :=
    keeps_modify fun _ counted => counted.executed tool arguments succeeded
  apply keeps_get
  intro run
  cases toolExecutor tool arguments run.history with
  | ok raw => exact Keeps.bind (noted _) fun _ => keeps_pure
  | error raised =>
      cases raised with
      | exception => exact Keeps.bind (noted _) fun _ => keeps_pure
      | cancelled => exact Keeps.bind (noted _) fun _ => keeps_throw

theorem keeps_callTool (stepIndex : Nat) (decision : AgentDecision) :
    Keeps (Counted runtime.settings) (runtime.callTool request toolExecutor stepIndex decision) := by
  apply Keeps.bind (keeps_emitTrace Counted.ambient _)
  intro _
  apply Keeps.bind keeps_ofExcept
  rintro ⟨allowed, reason, confirmationRequired⟩
  apply keeps_get
  intro run
  split
  · exact Keeps.bind (keeps_appendStep _) fun _ => keeps_pure
  · split
    · exact Keeps.bind (keeps_recordTool _ _) fun _ => keeps_pure
    · cases validateToolArguments runtime.modelValidate (decision.tool.getD "None")
          decision.arguments with
      | none => exact Keeps.bind (keeps_recordTool _ _) fun _ => keeps_pure
      | some arguments =>
          apply Keeps.bind (keeps_executeTool _ _)
          intro outcome
          cases outcome with
          | ok => exact Keeps.bind (keeps_recordTool _ _) fun _ => keeps_pure
          | error => exact Keeps.bind (keeps_recordTool _ _) fun _ => keeps_pure

theorem keeps_iteration (stepIndex : Nat) :
    Keeps (Counted runtime.settings) (runtime.iteration request toolExecutor stepIndex) := by
  apply Keeps.bind (keeps_decide Counted.ambient _)
  intro result
  apply Keeps.bind (keeps_account result)
  intro totals
  split
  · exact Keeps.bind (keeps_appendStep _) fun _ => keeps_pure
  · apply Keeps.bind (keeps_emitTrace Counted.ambient _)
    intro _
    split
    · exact Keeps.bind (keeps_appendStep _) fun _ => keeps_pure
    · exact keeps_callTool _ _

/-- A result reports the last estimate. -/
theorem ends_execute_counted (runtime : AgentRuntime) (request : AgentRuntimeRequest)
    (toolExecutor : ToolExecutor) :
    Ends (Counted runtime.settings) (runtime.execute request toolExecutor)
      (fun result s => Counted runtime.settings s ∧
        result.estimatedCostUsd = (estimates s.deeds).getLastD 0)
      (fun _ => Counted runtime.settings) := by
  unfold execute
  split
  · exact fun _ counted => counted
  · apply Ends.bind (keeps_emitTrace Counted.ambient _)
    intro _
    apply Ends.bind (m := fun _ => Counted runtime.settings)
    · apply ends_rounds fun _ => Counted runtime.settings
      · intro round _
        apply (keeps_iteration round).weaken
        intro answer s counted
        cases answer with
        | none => exact counted
        | some => exact counted
      · exact fun _ counted => counted
      · exact Nat.zero_add _
    · intro status before counted
      have ambient : Ambient fun s => Counted runtime.settings s ∧ s.deeds = before.deeds :=
        fun s observation history events fallbackUsed same =>
          ⟨Counted.ambient s observation history events fallbackUsed same.1, same.2⟩
      refine (Ends.mono (keeps_conclude ambient status) (fun _ same => same) ?_ ?_) before
        ⟨counted, rfl⟩
      · rintro _ s ⟨⟨run, ⟨started, deeds⟩, artifact, sharedState, _, rfl⟩, kept, same⟩
        refine ⟨kept, ?_⟩
        rw [same, ← deeds]
        exact started.reported
      · exact fun _ s kept => kept.1

theorem estimates_deeds (runtime : AgentRuntime) (request : AgentRuntimeRequest)
    (toolExecutor : ToolExecutor) :
    estimates (runtime.deeds request toolExecutor) =
      estimatesFrom runtime.settings 0 0 (decisions (runtime.deeds request toolExecutor)) := by
  have ends := ends_execute_counted runtime request toolExecutor _
    (Counted.init runtime.settings request.observation)
  unfold deeds run
  cases ran : runtime.execute request toolExecutor { observation := request.observation } with
  | ok result s =>
      rw [ran] at ends
      exact ends.1.estimates
  | error raised s =>
      rw [ran] at ends
      exact ends.estimates

theorem estimatedCostUsd_eq (runtime : AgentRuntime) (request : AgentRuntimeRequest)
    (toolExecutor : ToolExecutor) {result : AgentRuntimeResult} {s : RunState}
    (ran : runtime.run request toolExecutor = .ok result s) :
    result.estimatedCostUsd = (estimates (runtime.deeds request toolExecutor)).getLastD 0 := by
  have reported := (ends_execute_counted runtime request toolExecutor).result
    (Counted.init runtime.settings request.observation) ran
  unfold deeds
  rw [ran]
  exact reported.2

end AgentRuntime

/-- The budget checks and the report of a run see the sum of the decisions' own costs, which never
goes down. -/
structure CostsAccounted (runtime : AgentRuntime) (request : AgentRuntimeRequest)
    (toolExecutor : ToolExecutor) (costs : List ℚ) : Prop where
  checked : estimates (runtime.deeds request toolExecutor) = runningSums 0 costs
  reported : ∀ result s, runtime.run request toolExecutor = .ok result s →
    result.estimatedCostUsd = costs.sum
  nondecreasing : (estimates (runtime.deeds request toolExecutor)).Pairwise (· ≤ ·)

/-- A run's costs are accounted for just when its prices are steady. -/
theorem run_costs_accounted_iff (runtime : AgentRuntime) (request : AgentRuntimeRequest)
    (toolExecutor : ToolExecutor) :
    CostsAccounted runtime request toolExecutor
        ((decisions (runtime.deeds request toolExecutor)).map (ownCost runtime.settings)) ↔
      SteadyRun runtime.settings (decisions (runtime.deeds request toolExecutor)) := by
  have checked := AgentRuntime.estimates_deeds runtime request toolExecutor
  rw [steadyRun_iff]
  constructor
  · intro accounted
    rw [← checked]
    exact ⟨accounted.checked, accounted.nondecreasing⟩
  · rintro ⟨sums, ordered⟩
    rw [← checked] at sums ordered
    refine ⟨sums, ?_, ordered⟩
    intro result s ran
    rw [AgentRuntime.estimatedCostUsd_eq runtime request toolExecutor ran, sums,
      getLastD_runningSums, zero_add]

/-- A decision of a dear model, and then the fallback decider's at the default price: the tokens of
the first are charged at the second's price. -/
theorem repriced_after_fallback :
    estimates ((companionRuntime failingModel).deeds companionRequest answersNothing) =
        [3 / 625, 3 / 3125] ∧
      ¬ CostsAccounted (companionRuntime failingModel) companionRequest answersNothing
        ((decisions ((companionRuntime failingModel).deeds companionRequest answersNothing)).map
          (ownCost (companionRuntime failingModel).settings)) := by
  have checked : estimates ((companionRuntime failingModel).deeds companionRequest
      answersNothing) = [3 / 625, 3 / 3125] := by decide +kernel
  refine ⟨checked, fun accounted => ?_⟩
  have ordered := accounted.nondecreasing
  rw [checked] at ordered
  norm_num at ordered

end MapGo.Agents
