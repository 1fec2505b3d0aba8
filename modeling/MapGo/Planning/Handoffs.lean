import MapGo.Planning.Service
import MapGo.Postcondition

/-! One specification for each stage of a planning run. Between stages one message is in flight; a
stage that waits for it consumes it and sends the next one. Only exceptions of the work inside a
stage end it early. -/
namespace MapGo.Planning

open Postcondition

/-- Ends that are no protocol error. -/
def Calm (stop : Stop) : Prop := stop.protocolError = false

theorem ensures_raise {outcome : Option α} {post : α → Prop}
    (holds : ∀ value, outcome = some value → post value) : Ensures Calm post (raise outcome) := by
  cases outcome with
  | none => rfl
  | some value => exact holds value rfl

namespace Orchestrator

/-- `later` is reached from `o` with that many solves and no completed review. -/
structure Advance (solves : Nat) (o later : Orchestrator) : Prop where
  settings : later.settings = o.settings
  handoffs : o.handoffCount ≤ later.handoffCount
  cost : o.totalCostUsd ≤ later.totalCostUsd
  solved : later.solves = o.solves + solves
  reviews : later.reviews = o.reviews

/-- No message is in flight. -/
def Idle (o : Orchestrator) : Prop := o.pending = fun _ => []

/-- One message is in flight, of that type to that receiver. -/
def Awaits (o : Orchestrator) (receiver : AgentEndpoint) (artifactType : ArtifactType) : Prop :=
  ∃ sender, o.pending = Function.update (fun _ => []) receiver [⟨sender, receiver, artifactType⟩]

variable {o later third : Orchestrator} {receiver sender : AgentEndpoint}
  {artifactType : ArtifactType} {expected : List ArtifactType} {solves more : Nat}

theorem Advance.refl (o : Orchestrator) : Advance 0 o o := ⟨rfl, le_rfl, le_rfl, rfl, rfl⟩

theorem Advance.trans (first : Advance solves o later) (second : Advance more later third) :
    Advance (solves + more) o third where
  settings := second.settings.trans first.settings
  handoffs := first.handoffs.trans second.handoffs
  cost := first.cost.trans second.cost
  solved := by rw [second.solved, first.solved, Nat.add_assoc]
  reviews := second.reviews.trans first.reviews

/-- A critic that may run late in the run might have run before. -/
theorem Advance.mayRunCritic (advance : Advance solves o later)
    (may : later.mayRunCritic = true) : o.mayRunCritic = true := by
  simp only [Orchestrator.mayRunCritic, Bool.and_eq_true, decide_eq_true_eq,
    advance.settings] at may ⊢
  obtain ⟨⟨mode, below⟩, cheap⟩ := may
  have cost : (o.totalCostUsd : ℚ) ≤ later.totalCostUsd := by exact_mod_cast advance.cost
  exact ⟨⟨mode, advance.handoffs.trans_lt below⟩, cost.trans_lt cheap⟩

theorem Idle.dispatch (idle : o.Idle) :
    (o.dispatch sender receiver artifactType).Awaits receiver artifactType := by
  refine ⟨sender, ?_⟩
  have empty : o.pending = fun _ => [] := idle
  simp [Orchestrator.dispatch, empty]

theorem advance_dispatch : Advance 0 o (o.dispatch sender receiver artifactType) :=
  ⟨rfl, le_rfl, le_rfl, rfl, rfl⟩

theorem advance_record {execution : AgentExecution α} : Advance 0 o (o.record execution) :=
  ⟨rfl, Nat.le_succ _, le_self_add, rfl, rfl⟩

/-- A message is sent and the execution recorded. -/
theorem Idle.send {execution : AgentExecution α} (idle : o.Idle) :
    ((o.dispatch sender receiver artifactType).record execution).Awaits receiver artifactType ∧
      Advance 0 o ((o.dispatch sender receiver artifactType).record execution) :=
  ⟨idle.dispatch (o := o), advance_dispatch.trans advance_record⟩

/-- A stage that accepts the message in flight consumes it, and nothing else changes. -/
theorem Awaits.consumed (awaits : o.Awaits receiver artifactType)
    (accepts : artifactType ∈ expected) :
    o.consume receiver expected = .ok { o with pending := fun _ => [] } := by
  obtain ⟨sender, queues⟩ := awaits
  have emptied : Function.update o.pending receiver [] = fun _ => [] := by
    rw [queues, Function.update_idem]
    exact Function.update_eq_self (f := fun _ => []) receiver
  have head : o.pending receiver = [⟨sender, receiver, artifactType⟩] := by
    rw [queues, Function.update_self]
  simp only [Orchestrator.consume, head, accepts, if_true, emptied]

theorem Awaits.consume (awaits : o.Awaits receiver artifactType)
    (accepts : artifactType ∈ expected) :
    Ensures Calm (fun rest => rest.Idle ∧ Advance 0 o rest) (o.consume receiver expected) := by
  rw [awaits.consumed accepts]
  exact ⟨rfl, rfl, le_rfl, le_rfl, rfl, rfl⟩

theorem start_spec {settings : Settings} {outcome : Outcome Unit} :
    Ensures Calm (fun o => o.Awaits .intent .planningRequest ∧ Advance 0 (fresh settings) o)
      ((fresh settings).start outcome) := by
  have idle : (fresh settings).Idle := rfl
  refine Ensures.bind ((idle.dispatch).consume (by decide)) fun o ⟨idle, advance⟩ => ?_
  refine Ensures.bind (ensures_raise fun _ _ => trivial) fun execution _ => ?_
  exact ⟨idle.send.1, (advance_dispatch.trans advance).trans idle.send.2⟩

theorem understand_spec {outcome : Outcome (PlanIntent × List ClarificationQuestion)}
    (awaits : o.Awaits .intent .planningRequest) :
    Ensures Calm (fun understood => understood.2.Awaits .supervisor .intentArtifact ∧
      Advance 0 o understood.2) (o.understand outcome) := by
  refine Ensures.bind (awaits.consume (by decide)) fun o ⟨idle, advance⟩ => ?_
  refine Ensures.bind (ensures_raise fun _ _ => trivial) fun execution _ => ?_
  exact ⟨idle.send.1, advance.trans idle.send.2⟩

theorem planNext_spec {outcome : Outcome Unit} (awaits : o.Awaits .supervisor .intentArtifact) :
    Ensures Calm (fun later => later.Awaits .search .intentArtifact ∧ Advance 0 o later)
      (o.planNext outcome) := by
  refine Ensures.bind (awaits.consume (by decide)) fun o ⟨idle, advance⟩ => ?_
  refine Ensures.bind (ensures_raise fun _ _ => trivial) fun execution _ => ?_
  exact ⟨idle.send.1, advance.trans idle.send.2⟩

/-- A recovery leaves no message behind. -/
theorem recover_spec {outcome : Outcome Unit} (idle : o.Idle) :
    Ensures Calm (fun later => later.Idle ∧ Advance 0 o later) (o.recover outcome) := by
  refine Ensures.bind ((idle.dispatch).consume (by decide)) fun o ⟨idle, advance⟩ => ?_
  refine Ensures.bind (ensures_raise fun _ _ => trivial) fun execution _ => ?_
  exact ⟨idle, (advance_dispatch.trans advance).trans advance_record⟩

theorem recoveries_spec {outcomes : List (Outcome Unit)} (idle : o.Idle) :
    Ensures Calm (fun later => later.Idle ∧ Advance 0 o later) (outcomes.foldlM recover o) := by
  refine Ensures.foldlM (fun later => later.Idle ∧ Advance 0 o later) (fun later outcome ⟨idle, advance⟩ => ?_) ⟨idle, .refl o⟩
  exact (recover_spec idle).mono fun _ ⟨idle, next⟩ => ⟨idle, advance.trans next⟩

/-- What the solve leaves in flight: the plan waits for the critic, or for the supervisor when it
asks for clarification or no critic may run. -/
def Handed (result : AIPlanResult) (o : Orchestrator) : Prop :=
  (result.status ≠ .needClarification ∧ o.Awaits .critic .planCandidate) ∨
    (o.Awaits .supervisor .planCandidate ∧
      (result.status = .needClarification ∨ o.mayRunCritic = false))

variable {solve : SolveOutcome} {graph : List AgentPlanStep} {awaited : ArtifactType}

theorem runSearch_spec (graph : List AgentPlanStep) (solve : SolveOutcome)
    (awaits : o.Awaits .search awaited)
    (accepts : awaited ∈ [ArtifactType.intentArtifact, .retryDirective]) :
    Ensures Calm (fun later => later.Awaits
      (if graph.any (·.stepId = .safetyCheck) then .safety else .planner) .searchArtifact ∧
        Advance 0 o later) (o.runSearch graph solve) := by
  refine Ensures.bind (awaits.consume accepts) fun o ⟨idle, advance⟩ => ?_
  refine Ensures.bind (recoveries_spec idle) fun o ⟨idle, recovered⟩ => ?_
  refine Ensures.bind (ensures_raise fun _ _ => trivial) fun execution _ => ?_
  exact ⟨idle.send.1, (advance.trans recovered).trans idle.send.2⟩

theorem checkSafety_spec (awaits : o.Awaits .safety .searchArtifact) :
    Ensures Calm (fun later => later.Awaits .planner .safetyReport ∧ Advance 0 o later)
      (o.checkSafety solve) := by
  refine Ensures.bind (awaits.consume (by decide)) fun o ⟨idle, advance⟩ => ?_
  refine Ensures.bind (ensures_raise fun _ _ => trivial) fun execution _ => ?_
  exact ⟨idle.send.1, advance.trans idle.send.2⟩

theorem runPlanner_spec (awaits : o.Awaits .planner awaited)
    (accepts : awaited ∈ [ArtifactType.searchArtifact, .safetyReport]) :
    Ensures Calm (fun solved => Handed solved.1 solved.2 ∧ Advance 1 o solved.2)
      (o.runPlanner solve) := by
  refine Ensures.bind (awaits.consume accepts) fun o ⟨idle, advance⟩ => ?_
  refine Ensures.bind (ensures_raise fun _ _ => trivial) fun execution _ => ?_
  have planned (receiver) : Advance 1 o { (o.dispatch .planner receiver .planCandidate).record
      execution with solves := o.solves + 1 } := ⟨rfl, Nat.le_succ _, le_self_add, rfl, rfl⟩
  refine ⟨?_, advance.trans (planned _)⟩
  by_cases asks : execution.output.status = .needClarification
  · right
    refine ⟨?_, .inl asks⟩
    simp only [asks, ne_eq, not_true_eq_false, decide_false, Bool.false_and]
    exact idle.dispatch
  · by_cases may : o.mayRunCritic = true
    · left
      refine ⟨asks, ?_⟩
      simp only [asks, may, ne_eq, not_false_eq_true, decide_true, Bool.and_true]
      exact idle.dispatch
    · right
      refine ⟨?_, .inr ?_⟩
      · simp only [may, Bool.and_false]
        exact idle.dispatch
      · exact Bool.eq_false_iff.mpr fun later => may ((planned _).mayRunCritic later)

/-- The order in which the rounds of a task graph execute its steps. -/
def schedule (graph : List AgentPlanStep) : Nat → List StepId → List StepId → Option (List StepId)
  | 0, _, _ => none
  | fuel + 1, pending, completed =>
      if pending = [] then some []
      else
        let ready := (graph.filter fun step =>
          step.stepId ∈ pending ∧ ∀ dependency ∈ step.dependsOn, dependency ∈ completed).map
            AgentPlanStep.stepId
        if ready = [] then none
        else (schedule graph fuel (pending.filter (· ∉ ready)) (completed ++ ready)).map (ready ++ ·)

theorem executeRounds_eq {fuel : Nat} {pending completed order : List StepId}
    {state : Option AIPlanResult × Orchestrator}
    (scheduled : schedule graph fuel pending completed = some order) :
    executeRounds graph solve fuel pending completed state =
      order.foldlM (executePlanStep graph solve) state := by
  induction fuel generalizing pending completed order state with
  | zero => contradiction
  | succ fuel ih =>
      rw [schedule] at scheduled
      rw [executeRounds]
      split at scheduled
      · rename_i finished
        cases scheduled
        rw [if_pos finished]
        rfl
      · rename_i unfinished
        rw [if_neg unfinished]
        dsimp only at scheduled ⊢
        split at scheduled
        · contradiction
        · rename_i ready
          obtain ⟨rest, later, rfl⟩ := Option.map_eq_some_iff.mp scheduled
          rw [if_neg ready, List.foldlM_append]
          congr 1
          funext state
          exact ih later

/-- Every task graph of the supervisor runs in the order of its steps. -/
theorem schedule_buildExecutionPlan (safety weather : Bool) :
    let graph := buildExecutionPlan safety weather
    schedule graph (graph.length + 1) (graph.map AgentPlanStep.stepId) [] =
      some (graph.map AgentPlanStep.stepId) := by
  revert safety weather
  decide

theorem graph_order (safety weather : Bool) :
    (buildExecutionPlan safety weather).map AgentPlanStep.stepId =
      .search :: ((if weather then [.weather] else []) ++
        ((if safety then [.safetyCheck] else []) ++ [.planner])) := by
  cases safety <;> cases weather <;> rfl

theorem graph_checksSafety (safety weather : Bool) :
    (buildExecutionPlan safety weather).any (·.stepId = .safetyCheck) = safety := by
  cases safety <;> cases weather <;> rfl

theorem executePlanningStages_eq (safety weather : Bool) :
    o.executePlanningStages (buildExecutionPlan safety weather) solve = (do
      let planned ← ((buildExecutionPlan safety weather).map AgentPlanStep.stepId).foldlM
        (executePlanStep (buildExecutionPlan safety weather) solve) (none, o)
      let result ← raise planned.1
      return (result, planned.2)) := by
  rw [executePlanningStages, executeRounds_eq (schedule_buildExecutionPlan safety weather)]

section steps
variable {safety weather : Bool} {state : Option AIPlanResult × Orchestrator}

theorem weather_spec : Ensures Calm (· = state)
    ((if weather then [.weather] else []).foldlM (executePlanStep graph solve) state) := by
  cases weather with
  | false => exact ensures_pure.mpr rfl
  | true =>
      have step : Ensures Calm (· = state) (executePlanStep graph solve state .weather) :=
        Ensures.bind (ensures_raise fun _ _ => trivial) fun _ _ => rfl
      exact Ensures.bind step fun _ same => same

theorem safety_spec (awaits : state.2.Awaits (if safety then .safety else .planner) .searchArtifact) :
    Ensures Calm (fun later => (∃ awaited ∈ [ArtifactType.searchArtifact, .safetyReport],
        later.2.Awaits .planner awaited) ∧ Advance 0 state.2 later.2)
      ((if safety then [.safetyCheck] else []).foldlM (executePlanStep graph solve) state) := by
  cases safety with
  | false => exact ⟨⟨_, by decide, awaits⟩, .refl _⟩
  | true =>
      have step : Ensures Calm (fun later => later.2.Awaits .planner .safetyReport ∧
          Advance 0 state.2 later.2) (executePlanStep graph solve state .safetyCheck) :=
        Ensures.bind (checkSafety_spec awaits) fun _ checked => checked
      exact Ensures.bind step fun _ ⟨awaits, advance⟩ => ⟨⟨_, by decide, awaits⟩, advance⟩

theorem planner_spec (awaits : state.2.Awaits .planner awaited)
    (accepts : awaited ∈ [ArtifactType.searchArtifact, .safetyReport]) :
    Ensures Calm (fun later => ∃ result, later.1 = some result ∧ Handed result later.2 ∧
        Advance 1 state.2 later.2)
      ([StepId.planner].foldlM (executePlanStep graph solve) state) := by
  have step : Ensures Calm (fun later => ∃ result, later.1 = some result ∧ Handed result later.2 ∧
      Advance 1 state.2 later.2) (executePlanStep graph solve state .planner) :=
    Ensures.bind (runPlanner_spec awaits accepts) fun solved holds => ⟨solved.1, rfl, holds⟩
  exact Ensures.bind step fun _ planned => planned

end steps

/-- A solve hands its plan over, and only one solve has been made. -/
theorem executePlanningStages_spec {intent : PlanIntent} (awaits : o.Awaits .search awaited)
    (accepts : awaited ∈ [ArtifactType.intentArtifact, .retryDirective]) :
    Ensures Calm (fun solved => Handed solved.1 solved.2 ∧ Advance 1 o solved.2)
      (o.executePlanningStages intent.graph solve) := by
  simp only [PlanIntent.graph, executePlanningStages_eq]
  generalize intent.safetySensitive = safety, intent.weatherRequired = weather
  have searched := runSearch_spec (buildExecutionPlan safety weather) solve awaits accepts
  rw [graph_checksSafety] at searched
  have found : Ensures Calm (fun state : Option AIPlanResult × Orchestrator =>
      state.2.Awaits (if safety then .safety else .planner) .searchArtifact ∧ Advance 0 o state.2)
      (executePlanStep (buildExecutionPlan safety weather) solve (none, o) .search) :=
    Ensures.bind searched fun _ found => found
  have ran : Ensures Calm (fun state : Option AIPlanResult × Orchestrator =>
      ∃ result, state.1 = some result ∧ Handed result state.2 ∧ Advance 1 o state.2)
      (((buildExecutionPlan safety weather).map AgentPlanStep.stepId).foldlM
        (executePlanStep (buildExecutionPlan safety weather) solve) (none, o)) := by
    rw [graph_order, List.foldlM_cons]
    refine Ensures.bind found fun state ⟨awaits, advance⟩ => ?_
    rw [List.foldlM_append]
    refine Ensures.bind weather_spec fun same same_eq => ?_
    subst same_eq
    rw [List.foldlM_append]
    refine Ensures.bind (safety_spec awaits) fun checked ⟨⟨_, accepts, awaits⟩, waited⟩ => ?_
    refine (planner_spec awaits accepts).mono fun later ⟨result, kept, handed, planned⟩ => ?_
    exact ⟨result, kept, handed, (advance.trans waited).trans planned⟩
  refine Ensures.bind ran fun state ⟨result, kept, handed, advance⟩ => ?_
  rw [kept]
  exact ⟨handed, advance⟩

/-- No review comes of it: the critic may not run, or its cost goes over the limit. -/
def SkipsReview (o : Orchestrator) (outcome : Outcome ReviewReport) : Prop :=
  o.mayRunCritic = false ∨ ∃ execution, outcome = some execution ∧
    o.settings.maxAgentWorkflowCostUsd < o.totalCostUsd + execution.estimatedCostUsd

/-- The plan of the last solve has been reviewed. -/
structure Reviewed (plan : Plan) (report : ReviewReport) (o later : Orchestrator) : Prop where
  settings : later.settings = o.settings
  solved : later.solves = o.solves
  reviews : later.reviews = o.reviews ++ [⟨o.solves, plan, report⟩]
  awaits : later.Awaits .supervisor .reviewReport

/-- The outcomes of a review: none, or a completed one. -/
def ReviewOutcome (plan : Plan) (outcome : Outcome ReviewReport) (o : Orchestrator) :
    Option ReviewReport × Orchestrator → Prop
  | (none, later) => o.SkipsReview outcome ∧ Advance 0 o later
  | (some report, later) => ¬ o.SkipsReview outcome ∧ Reviewed plan report o later

variable {result : AIPlanResult} {plan : Plan} {outcome : Outcome ReviewReport}

theorem Handed.critic (handed : Handed result o) (may : o.mayRunCritic = true)
    (settled : result.status ≠ .needClarification) : o.Awaits .critic .planCandidate := by
  rcases handed with ⟨-, awaits⟩ | ⟨-, asks | never⟩
  · exact awaits
  · exact absurd asks settled
  · exact absurd may (by simp [never])

theorem review_skipped (may : o.mayRunCritic = false) :
    o.review plan outcome = .ok (none, o) := by
  simp [review, may]

/-- A critic that may run and has the plan in its queue reviews it. -/
theorem review_taken (awaits : o.Awaits .critic .planCandidate) (may : o.mayRunCritic = true) :
    o.review plan outcome = (do
      let execution ← raise outcome
      if o.settings.maxAgentWorkflowCostUsd < o.totalCostUsd + execution.estimatedCostUsd then
        return (none, { o with pending := fun _ => [] })
      else
        let o := (Orchestrator.dispatch { o with pending := fun _ => [] } .critic .supervisor
          .reviewReport).record execution
        let completed := ⟨o.solves, plan, execution.output⟩
        return (some execution.output, { o with reviews := o.reviews ++ [completed] })) := by
  rw [review, if_pos may, awaits.consumed (by decide)]
  rfl

/-- The plan of a retry that asks for clarification is not in the critic's queue. -/
theorem review_stranded (handed : Handed result o) (asks : result.status = .needClarification)
    (may : o.mayRunCritic = true) : o.review plan outcome = .error (.noPending .critic) := by
  rcases handed with ⟨settled, -⟩ | ⟨⟨sender, queues⟩, -⟩
  · exact absurd asks settled
  · simp [review, may, Orchestrator.consume, queues, bind, Except.bind]

theorem review_spec (handed : Handed result o)
    (settled : result.status = .needClarification → o.mayRunCritic = false) :
    Ensures Calm (ReviewOutcome plan outcome o) (o.review plan outcome) := by
  by_cases may : o.mayRunCritic = true
  · rw [review_taken (handed.critic may fun asks => absurd may (by simp [settled asks])) may]
    refine Ensures.bind (ensures_raise fun _ given => given) fun execution given => ?_
    split
    · rename_i costly
      exact ⟨.inr ⟨execution, given, costly⟩, rfl, le_rfl, le_rfl, rfl, rfl⟩
    · rename_i cheap
      refine ⟨?_, rfl, rfl, rfl, Idle.dispatch rfl⟩
      rintro (never | ⟨other, same, costly⟩)
      · exact absurd may (by simp [never])
      · cases given.symm.trans same
        exact cheap costly
  · rw [review_skipped (Bool.eq_false_iff.mpr may)]
    exact ⟨.inl (Bool.eq_false_iff.mpr may), .refl o⟩

/-- A review that is skipped returns nothing. -/
theorem review_skips (plan : Plan) (handed : Handed result o) (settled : result.status ≠ .needClarification)
    (skips : o.SkipsReview outcome) :
    ∃ later, o.review plan outcome = .ok (none, later) ∧ Advance 0 o later := by
  by_cases may : o.mayRunCritic = true
  · rcases skips with never | ⟨execution, rfl, costly⟩
    · exact absurd may (by simp [never])
    · rw [review_taken (handed.critic may settled) may]
      exact ⟨_, if_pos costly, rfl, le_rfl, le_rfl, rfl, rfl⟩
  · exact ⟨o, review_skipped (Bool.eq_false_iff.mpr may), .refl o⟩

/-- A soft retry finds the report of the review and directs a new search. -/
theorem applySoftAdjustments_spec {report : ReviewReport} {scheduled : Option Unit}
    (awaits : o.Awaits .supervisor .reviewReport) (retry : report.verdict = .retryWithSoftAdjustments) :
    Ensures Calm (fun later => later.Awaits .search .retryDirective ∧ Advance 0 o later)
      (o.applySoftAdjustments report scheduled) := by
  obtain ⟨adjustments, suggested, -⟩ := report.retryBoundary retry
  rw [applySoftAdjustments, if_neg (by simp [suggested])]
  have counted : ({ o with retryCount := o.retryCount + 1 } : Orchestrator).Awaits
      .supervisor .reviewReport := awaits
  refine Ensures.bind (counted.consume (by decide)) fun rest ⟨idle, advance⟩ => ?_
  refine Ensures.bind (ensures_raise fun _ _ => trivial) fun _ _ => ?_
  have retried : Advance 0 o rest := ⟨advance.settings, advance.handoffs, advance.cost,
    advance.solved, advance.reviews⟩
  exact ⟨idle.dispatch, retried.trans advance_dispatch⟩

theorem finalize_spec {final : Outcome Unit} :
    Ensures Calm (fun later => Advance 0 o later) (o.finalize final) :=
  Ensures.bind (ensures_raise fun _ _ => trivial) fun _ _ =>
    ⟨rfl, Nat.le_succ _, le_self_add, rfl, rfl⟩

end Orchestrator

open Orchestrator

namespace Script
variable {script : Script} {settings : Settings} {intent : PlanIntent} {o : Orchestrator}

theorem intake_spec : Ensures Calm (fun taken => taken.2.Awaits .supervisor .intentArtifact ∧
    Advance 0 (fresh settings) taken.2) (script.intake settings) := by
  refine Ensures.bind start_spec fun o ⟨awaits, advance⟩ => ?_
  exact (understand_spec awaits).mono fun _ ⟨awaits, next⟩ => ⟨awaits, advance.trans next⟩

theorem solve_spec (awaits : o.Awaits .supervisor .intentArtifact) :
    Ensures Calm (fun solved => Handed solved.1 solved.2 ∧ Advance 1 o solved.2)
      (script.solve o intent) := by
  refine Ensures.bind (planNext_spec awaits) fun o ⟨awaits, advance⟩ => ?_
  refine (executePlanningStages_spec awaits (by decide)).mono fun _ ⟨handed, next⟩ => ?_
  exact ⟨handed, advance.trans next⟩

theorem solveAgain_spec {report : ReviewReport} (awaits : o.Awaits .supervisor .reviewReport)
    (retry : report.verdict = .retryWithSoftAdjustments) :
    Ensures Calm (fun solved => Handed solved.1 solved.2 ∧ Advance 1 o solved.2)
      (script.solveAgain o intent report) := by
  refine Ensures.bind (applySoftAdjustments_spec awaits retry) fun o ⟨awaits, advance⟩ => ?_
  refine (executePlanningStages_spec awaits (by decide)).mono fun _ ⟨handed, next⟩ => ?_
  exact ⟨handed, advance.trans next⟩

theorem finish_spec {result : AIPlanResult} :
    Ensures Calm (fun finished => finished.1 = result ∧ Advance 0 o finished.2)
      (script.finish o result) :=
  Ensures.bind finalize_spec fun _ advance => ⟨rfl, advance⟩

end Script
end MapGo.Planning
