import MapGo.Planning.Handoffs
import MapGo.Planning.TaskGraph

/-! The supervisor's plan in its task graph. A validated graph whose stages wait for the intent and
for one another alone always has a node that is ready, and the graphs of the supervisor are such. -/
namespace MapGo.Planning.TaskGraph

/-- The stages wait for the intent and for stages only. -/
def Closed (plan : AgentExecutionPlan) : Prop :=
  ∀ step ∈ subgraph plan, ∀ dependency ∈ step.dependsOn,
    dependency = "intent" ∨ dependency ∈ nodes plan

section
variable {V E : Type} {plan : AgentExecutionPlan} {run : GraphRun V} {seen : List String}
  {steps : List AgentPlanStep} {results : List (String × Except E V)}
  {execute : GraphRun V → String → Except E V}

/-- The intent and the stages that are not pending have been completed, and nothing else. -/
structure Tracked (plan : AgentExecutionPlan) (run : GraphRun V) : Prop where
  given : "intent" ∈ run.completed
  completed : ∀ node ∈ nodes plan, node ∈ run.pending ∨ node ∈ run.completed
  known : ∀ node ∈ run.completed, node = "intent" ∨ node ∈ nodes plan
  succeeded : ∀ node ∈ run.completed, node = "intent" ∨ .ended node true ∈ run.events

theorem mem_nodes {node : String} : node ∈ nodes plan ↔
    node ∈ plan.steps.map AgentPlanStep.stepId ∧ node ∉ ["intent", "critic", "final_answer"] := by
  rw [nodes, subgraph]
  constructor
  · intro member
    obtain ⟨step, kept, rfl⟩ := List.mem_map.mp member
    obtain ⟨inside, chosen⟩ := List.mem_filter.mp kept
    exact ⟨List.mem_map_of_mem inside, of_decide_eq_true chosen⟩
  · rintro ⟨member, chosen⟩
    obtain ⟨step, inside, rfl⟩ := List.mem_map.mp member
    exact List.mem_map_of_mem (List.mem_filter.mpr ⟨inside, decide_eq_true chosen⟩)

/-- In the order of the plan the first pending stage waits for nothing. -/
theorem exists_ready (tracked : Tracked plan run) (closed : Closed plan)
    (inside : ∀ step ∈ steps, step ∈ plan.steps) (valid : validTaskGraph seen steps = true)
    (before : ∀ node ∈ seen, node ∈ nodes plan → node ∈ run.completed)
    (waiting : ∃ step ∈ steps, step.stepId ∈ nodes plan ∧ step.stepId ∈ run.pending) :
    run.ready (subgraph plan) ≠ [] := by
  induction steps generalizing seen with
  | nil =>
      obtain ⟨_, member, -⟩ := waiting
      cases member
  | cons step rest ih =>
      simp only [validTaskGraph, Bool.and_eq_true, decide_eq_true_eq, List.all_eq_true] at valid
      obtain ⟨⟨-, needs⟩, valid⟩ := valid
      by_cases here : step.stepId ∈ nodes plan ∧ step.stepId ∈ run.pending
      · have stage : step ∈ subgraph plan :=
          List.mem_filter.mpr ⟨inside step List.mem_cons_self,
            decide_eq_true (mem_nodes.mp here.1).2⟩
        refine List.ne_nil_of_mem (a := step.stepId) (List.mem_map_of_mem ?_)
        refine List.mem_filter.mpr ⟨stage, decide_eq_true ⟨here.2, fun dependency member => ?_⟩⟩
        obtain rfl | among := closed step stage dependency member
        · exact tracked.given
        · exact before dependency (needs dependency member) among
      · refine ih (fun other member => inside other (List.mem_cons_of_mem _ member)) valid ?_ ?_
        · intro node member among
          rcases List.mem_cons.mp member with rfl | earlier
          · exact (tracked.completed _ among).resolve_left fun pending => here ⟨among, pending⟩
          · exact before node earlier among
        · obtain ⟨other, member, pending⟩ := waiting
          rcases List.mem_cons.mp member with rfl | later
          · exact absurd pending here
          · exact ⟨other, later, pending⟩

theorem Tracked.initial (plan : AgentExecutionPlan) (intent : V) :
    Tracked plan (GraphRun.initial plan intent) where
  given := List.mem_singleton_self _
  completed := fun _ member => .inl member
  known := fun _ member => .inl (List.mem_singleton.mp member)
  succeeded := fun _ member => .inl (List.mem_singleton.mp member)

/-- A round without a failure. -/
theorem Tracked.round (tracked : Tracked plan run) (going : Going plan run)
    (whole : results.map Prod.fst = run.ready (subgraph plan))
    (passed : firstFailure results = none) :
    Tracked plan ((run.start (run.ready (subgraph plan))).settle results) := by
  have succeeds := isOk_of_firstFailure passed
  have ended : ∀ node, node ∈ (results.filterMap fun result =>
      if result.2.isOk then some result.1 else none) ↔ node ∈ run.ready (subgraph plan) := by
    intro node
    rw [← whole, List.mem_filterMap, List.mem_map]
    constructor
    · rintro ⟨result, member, kept⟩
      rw [if_pos (succeeds result member)] at kept
      exact ⟨result, member, Option.some.inj kept⟩
    · rintro ⟨result, member, rfl⟩
      exact ⟨result, member, if_pos (succeeds result member)⟩
  refine ⟨List.mem_append_left _ tracked.given, fun node member => ?_, fun node member => ?_,
    fun node member => ?_⟩
  · by_cases ready : node ∈ run.ready (subgraph plan)
    · exact .inr (List.mem_append_right _ ((ended node).mpr ready))
    · obtain pending | completed := tracked.completed node member
      · refine .inl (List.mem_filter.mpr ⟨pending, ?_⟩)
        rw [whole]
        exact decide_eq_true ready
      · exact .inr (List.mem_append_left _ completed)
  · rcases List.mem_append.mp member with earlier | now
    · exact tracked.known node earlier
    · exact .inr (going.pending node (ready_subset ((ended node).mp now)))
  · rcases List.mem_append.mp member with earlier | now
    · apply (tracked.succeeded node earlier).imp_right
      exact fun before => List.mem_append_left _ (List.mem_append_left _ before)
    · have ready := (ended node).mp now
      rw [← whole] at ready
      obtain ⟨result, found, rfl⟩ := List.mem_map.mp ready
      refine .inr (List.mem_append_right _ (List.mem_map.mpr ⟨result, found, ?_⟩))
      rw [succeeds result found]

/-- How the rounds of a closed graph end. -/
def Ends (plan : AgentExecutionPlan) : Option (GraphExit V E) × GraphRun V → Prop
  | (none, run) => Tracked plan run ∧ run.pending = []
  | (some (.failed _), run) => ∃ node ∈ nodes plan, .ended node false ∈ run.events
  | _ => False

theorem rounds_end (execute : GraphRun V → String → Except E V) (closed : Closed plan)
    (going : Going plan run) (tracked : Tracked plan run) :
    Ends plan (executeRounds execute (subgraph plan) run) := by
  fun_induction executeRounds execute (subgraph plan) run with
  | case1 run finished => exact ⟨tracked, finished⟩
  | case2 run waiting stuck =>
      obtain ⟨node, pending⟩ := List.exists_mem_of_ne_nil _ waiting
      have among := going.pending node pending
      obtain ⟨step, member, rfl⟩ := List.mem_map.mp (mem_nodes.mp among).1
      exact exists_ready tracked closed (fun _ inside => inside) plan.validated (by simp)
        ⟨step, member, among, pending⟩ stuck
  | case3 run waiting ready started results failure failed =>
      obtain ⟨result, member, raised⟩ := List.exists_of_findSome?_eq_some failed
      have named : result.1 ∈ run.ready (subgraph plan) := by
        have gathered : (gather execute started (run.ready (subgraph plan))).map Prod.fst =
            run.ready (subgraph plan) := map_fst_gather
        rw [← gathered]
        exact List.mem_map_of_mem member
      refine ⟨result.1, going.pending _ (ready_subset named), List.mem_append_right _ ?_⟩
      refine List.mem_map.mpr ⟨result, member, ?_⟩
      cases outcome : result.2 with
      | ok value =>
          rw [outcome] at raised
          cases raised
      | error other => rfl
  | case4 run waiting ready started results passed ih =>
      apply ih
      · apply going.round (fun status => status = .succeeded) map_fst_gather rfl
        intro result member
        rw [isOk_of_firstFailure passed result member]
        rfl
      · exact tracked.round going map_fst_gather passed

/-- Without a failure an open graph comes to a standstill. -/
theorem rounds_stuck (execute : GraphRun V → String → Except E V) {step : AgentPlanStep}
    {dependency : String} (member : step ∈ subgraph plan)
    (needs : dependency ∈ step.dependsOn) (foreign : dependency ≠ "intent" ∧ dependency ∉ nodes plan)
    (succeeds : ∀ run node, (execute run node).isOk = true)
    (going : Going plan run) (tracked : Tracked plan run) (pending : step.stepId ∈ run.pending) :
    ∃ stepIds, (executeRounds execute (subgraph plan) run).1 = some (.blocked stepIds) := by
  fun_induction executeRounds execute (subgraph plan) run with
  | case1 run finished =>
      rw [finished] at pending
      cases pending
  | case2 run waiting stuck => exact ⟨_, rfl⟩
  | case3 run waiting ready started results failure failed =>
      obtain ⟨result, inside, raised⟩ := List.exists_of_findSome?_eq_some failed
      obtain ⟨node, -, rfl⟩ := List.mem_map.mp inside
      have fine := succeeds started node
      dsimp only at raised
      split at raised
      · cases raised
      · rename_i outcome
        rw [outcome] at fine
        cases fine
  | case4 run waiting ready started results passed ih =>
      have never : step.stepId ∉ run.ready (subgraph plan) := by
        intro chosen
        have completed := completed_of_ready member chosen dependency needs
        obtain intent | among := tracked.known dependency completed
        · exact foreign.1 intent
        · exact foreign.2 among
      apply ih
      · apply going.round (fun status => status = .succeeded) map_fst_gather rfl
        intro result member
        rw [isOk_of_firstFailure passed result member]
        rfl
      · exact tracked.round going map_fst_gather passed
      · refine List.mem_filter.mpr ⟨pending, decide_eq_true ?_⟩
        rw [map_fst_gather]
        exact never

/-- The stages that a graph must have. -/
def HasStages (plan : AgentExecutionPlan) : Prop :=
  "search" ∈ plan.steps.map AgentPlanStep.stepId ∧ "planner" ∈ plan.steps.map AgentPlanStep.stepId

theorem executePlanningStages_of_stages (execute : GraphRun V → String → Except E V)
    (isPlan : V → Bool) (intent : V) (stages : HasStages plan) :
    executePlanningStages execute isPlan plan intent =
      match executeRounds execute (subgraph plan) (GraphRun.initial plan intent) with
      | (some exit, run) => (exit, run)
      | (none, run) =>
          match run.outputs.lookup "planner" with
          | some result => if isPlan result then (.planned result, run) else (.noPlan, run)
          | none => (.noPlan, run) := by
  unfold executePlanningStages
  exact if_pos stages

/-- How the planning stages of a closed graph end, if the given stages are there. -/
structure Finishes (plan : AgentExecutionPlan) (exit : GraphExit V E) (run : GraphRun V) : Prop where
  moves : exit ≠ .missingStages ∧ ∀ stepIds, exit ≠ .blocked stepIds
  fails : ∀ failure, exit = .failed failure → ∃ node ∈ nodes plan, .ended node false ∈ run.events
  completes : (∀ failure, exit ≠ .failed failure) →
    ∀ node ∈ nodes plan, (starts run.events).count node = 1 ∧ .ended node true ∈ run.events

theorem closed_finishes (execute : GraphRun V → String → Except E V) (isPlan : V → Bool)
    (intent : V) (stages : HasStages plan) (closed : Closed plan) :
    Finishes plan (executePlanningStages execute isPlan plan intent).1
      (executePlanningStages execute isPlan plan intent).2 := by
  have ends := rounds_end execute closed (initial_going plan intent)
    (Tracked.initial plan intent)
  have executed := executeRounds_executed execute (initial_going plan intent)
  have complete {run : GraphRun V} (going : Going plan run) (tracked : Tracked plan run)
      (finished : run.pending = []) :
      ∀ node ∈ nodes plan, (starts run.events).count node = 1 ∧ .ended node true ∈ run.events := by
    intro node member
    have gone : node ∉ run.pending := finished ▸ List.not_mem_nil
    have started := not_not.mp (mt (going.unstarted node member).mpr gone)
    have completed := (tracked.completed node member).resolve_left gone
    refine ⟨List.count_eq_one_of_mem going.ordered.once started, ?_⟩
    refine (tracked.succeeded node completed).resolve_left fun same => ?_
    exact (mem_nodes.mp member).2 (by simp [same])
  rw [executePlanningStages_of_stages execute isPlan intent stages]
  cases ran : executeRounds execute (subgraph plan) (GraphRun.initial plan intent) with
  | mk exit run =>
      rw [ran] at ends executed
      cases exit with
      | none =>
          obtain ⟨tracked, finished⟩ := ends
          have all := complete executed.1 tracked finished
          dsimp only
          split
          · split
            · exact ⟨⟨by simp, by simp⟩, by simp, fun _ => all⟩
            · exact ⟨⟨by simp, by simp⟩, by simp, fun _ => all⟩
          · exact ⟨⟨by simp, by simp⟩, by simp, fun _ => all⟩
      | some exit =>
          cases exit with
          | failed failure =>
              exact ⟨⟨by simp, by simp⟩, fun _ _ => ends, fun never => absurd rfl (never failure)⟩
          | planned _ => exact absurd ends id
          | missingStages => exact absurd ends id
          | blocked _ => exact absurd ends id
          | noPlan => exact absurd ends id

/-- The planning stages of a validated graph can come to a standstill exactly if one of them waits
for what is neither the intent nor a stage. -/
theorem standstill_iff (isPlan : V → Bool) (plan : AgentExecutionPlan) (intent : V)
    (stages : HasStages plan) :
    (∃ (execute : GraphRun V → String → Except E V) (stepIds : List String),
      (executePlanningStages execute isPlan plan intent).1 = .blocked stepIds) ↔ ¬ Closed plan := by
  constructor
  · rintro ⟨execute, stepIds, stuck⟩ closed
    exact (closed_finishes execute isPlan intent stages closed).moves.2 stepIds stuck
  · intro opened
    simp only [Closed, not_forall, not_or] at opened
    obtain ⟨step, member, dependency, needs, foreign⟩ := opened
    refine ⟨fun _ _ => .ok intent, ?_⟩
    obtain ⟨stepIds, stuck⟩ := rounds_stuck (E := E) (fun _ _ => .ok intent) member needs
      foreign (fun _ _ => rfl) (initial_going plan intent) (Tracked.initial plan intent)
      (List.mem_map_of_mem member)
    refine ⟨stepIds, ?_⟩
    rw [executePlanningStages_of_stages _ isPlan intent stages]
    split
    · rename_i exit run ran
      rw [ran] at stuck
      exact Option.some.inj stuck
    · rename_i run ran
      rw [ran] at stuck
      cases stuck

end

theorem reviewedFirst_valid : validTaskGraph [] [⟨"intent", [], .pending, 0⟩,
    ⟨"search", ["intent"], .pending, 0⟩, ⟨"critic", ["search"], .pending, 0⟩,
    ⟨"planner", ["critic"], .pending, 0⟩] = true := by decide

/-- A valid graph whose planner waits for the critic. -/
def reviewedFirst : AgentExecutionPlan := ⟨_, reviewedFirst_valid⟩

theorem standstill_iff_reviewed :
    ∃ (execute : GraphRun String → String → Except String String) (stepIds : List String),
      (executePlanningStages execute (· = "plan") reviewedFirst "intent").1 = .blocked stepIds := by
  have stages : HasStages reviewedFirst := ⟨by decide, by decide⟩
  refine (standstill_iff (· = "plan") reviewedFirst "intent" stages).mpr fun closed => ?_
  have waits := closed ⟨"planner", ["critic"], .pending, 0⟩ (List.mem_filter.mpr ⟨by
    simp [reviewedFirst], by decide⟩) "critic" (List.mem_singleton_self _)
  exact absurd waits (by decide)

/-! ### The graphs of the supervisor -/

/-- The steps of `_build_execution_plan`. -/
def supervisorSteps (safety weather : Bool) (mode : AgentWorkflowMode) : List AgentPlanStep :=
  [[⟨"intent", [], .pending, 0⟩, ⟨"search", ["intent"], .pending, 0⟩],
    if weather then [⟨"weather", ["intent"], .pending, 0⟩] else [],
    if safety then
      [⟨"safety_check", ["intent", "search"] ++ if weather then ["weather"] else [], .pending, 0⟩]
    else [],
    [⟨"planner", ["search"] ++ (if safety then ["safety_check"] else []) ++
      if weather && !safety then ["weather"] else [], .pending, 0⟩],
    if mode = .off then [] else [⟨"critic", ["planner"], .pending, 0⟩],
    [⟨"final_answer", [if mode = .off then "planner" else "critic"], .pending, 0⟩]].flatten

theorem supervisorSteps_valid (safety weather : Bool) (mode : AgentWorkflowMode) :
    validTaskGraph [] (supervisorSteps safety weather mode) = true := by
  cases safety <;> cases weather <;> cases mode <;> decide

/-- `_build_execution_plan` -/
def supervisorPlan (intent : PlanIntent) (mode : AgentWorkflowMode) : AgentExecutionPlan :=
  ⟨supervisorSteps intent.safetySensitive intent.weatherRequired mode, supervisorSteps_valid _ _ _⟩

/-- What the execution of a graph leaves as it is. -/
def AgentPlanStep.shape (step : AgentPlanStep) : String × List String := (step.stepId, step.dependsOn)

/-- The plan has the steps of the supervisor's plan, whatever has become of them. -/
def SupervisedBy (intent : PlanIntent) (mode : AgentWorkflowMode) (plan : AgentExecutionPlan) : Prop :=
  plan.steps.map AgentPlanStep.shape = (supervisorPlan intent mode).steps.map AgentPlanStep.shape

section
variable {plan other : AgentExecutionPlan} {intent : PlanIntent} {mode : AgentWorkflowMode}

theorem stepIds_of_shape
    (same : plan.steps.map AgentPlanStep.shape = other.steps.map AgentPlanStep.shape) :
    plan.steps.map AgentPlanStep.stepId = other.steps.map AgentPlanStep.stepId := by
  have first := congrArg (List.map Prod.fst) same
  rwa [List.map_map, List.map_map] at first

theorem closed_of_shape
    (same : plan.steps.map AgentPlanStep.shape = other.steps.map AgentPlanStep.shape)
    (closed : Closed other) : Closed plan := by
  intro step member dependency needs
  obtain ⟨inside, chosen⟩ := List.mem_filter.mp member
  have shaped : step.shape ∈ other.steps.map AgentPlanStep.shape :=
    same ▸ List.mem_map_of_mem inside
  obtain ⟨twin, there, alike⟩ := List.mem_map.mp shaped
  obtain ⟨named, waits⟩ := Prod.mk.inj alike
  have stage : twin ∈ subgraph other := List.mem_filter.mpr ⟨there, by rwa [named]⟩
  apply (closed twin stage dependency (waits ▸ needs)).imp_right
  rw [mem_nodes, mem_nodes, stepIds_of_shape same]
  exact id

theorem supervisorPlan_closed (intent : PlanIntent) (mode : AgentWorkflowMode) :
    Closed (supervisorPlan intent mode) := by
  have each : ∀ safety weather, ∀ step ∈ supervisorSteps safety weather mode,
      step.stepId ∉ ["intent", "critic", "final_answer"] → ∀ dependency ∈ step.dependsOn,
        dependency = "intent" ∨
          dependency ∈ (supervisorSteps safety weather mode).map AgentPlanStep.stepId ∧
            dependency ∉ ["intent", "critic", "final_answer"] := by
    cases mode <;> decide
  intro step member dependency needs
  obtain ⟨inside, chosen⟩ := List.mem_filter.mp member
  rw [mem_nodes]
  exact each _ _ step inside (of_decide_eq_true chosen) dependency needs

theorem nodes_eq_filter (plan : AgentExecutionPlan) : nodes plan =
    (plan.steps.map AgentPlanStep.stepId).filter (· ∉ ["intent", "critic", "final_answer"]) := by
  rw [nodes, subgraph, List.filter_map]
  rfl

/-- The stages of the plan, in their order. -/
theorem nodes_supervisorPlan (intent : PlanIntent) (mode : AgentWorkflowMode) :
    nodes (supervisorPlan intent mode) = "search" ::
      ((if intent.weatherRequired then ["weather"] else []) ++
        ((if intent.safetySensitive then ["safety_check"] else []) ++ ["planner"])) := by
  have each : ∀ safety weather, ((supervisorSteps safety weather mode).map
      AgentPlanStep.stepId).filter (· ∉ ["intent", "critic", "final_answer"]) = "search" ::
        ((if weather then ["weather"] else []) ++
          ((if safety then ["safety_check"] else []) ++ ["planner"])) := by
    cases mode <;> decide
  rw [nodes_eq_filter]
  exact each _ _

theorem supervisorPlan_hasStages (intent : PlanIntent) (mode : AgentWorkflowMode) :
    HasStages (supervisorPlan intent mode) := by
  have listed := nodes_supervisorPlan intent mode
  have search : "search" ∈ nodes (supervisorPlan intent mode) := by rw [listed]; simp
  have planner : "planner" ∈ nodes (supervisorPlan intent mode) := by rw [listed]; simp
  exact ⟨(mem_nodes.mp search).1, (mem_nodes.mp planner).1⟩

/-- Whatever the stages return or raise, and whichever solve it is: the execution of the supervisor's
plan never comes to a standstill. It ends after a stage that has failed, or with every stage started
once and succeeded. -/
theorem supervised_finishes {V E : Type} (intent : PlanIntent) (mode : AgentWorkflowMode)
    (plan : AgentExecutionPlan) (supervised : SupervisedBy intent mode plan)
    (execute : GraphRun V → String → Except E V) (isPlan : V → Bool) (value : V) :
    nodes plan = "search" :: ((if intent.weatherRequired then ["weather"] else []) ++
        ((if intent.safetySensitive then ["safety_check"] else []) ++ ["planner"])) ∧
      Finishes plan (executePlanningStages execute isPlan plan value).1
        (executePlanningStages execute isPlan plan value).2 := by
  have ids := stepIds_of_shape supervised
  constructor
  · rw [nodes_eq_filter, ids, ← nodes_eq_filter, nodes_supervisorPlan]
  · refine closed_finishes execute isPlan value ?_ ?_
    · rw [HasStages, ids]
      exact supervisorPlan_hasStages intent mode
    · exact closed_of_shape supervised (supervisorPlan_closed intent mode)

/-- A relaxed trip. -/
def relaxedTrip : PlanIntent := { preferences := { travelStyle := .relaxed } }

/-- Its planner raises. -/
def unroutable (_ : GraphRun String) (node : String) : Except String String :=
  if node = "planner" then .error "no route" else .ok node

theorem supervised_finishes_relaxed :
    nodes (supervisorPlan relaxedTrip .off) = ["search", "safety_check", "planner"] ∧
      Finishes (supervisorPlan relaxedTrip .off)
        (executePlanningStages unroutable (· = "plan") (supervisorPlan relaxedTrip .off) "intent").1
        (executePlanningStages unroutable (· = "plan") (supervisorPlan relaxedTrip .off) "intent").2 :=
  supervised_finishes relaxedTrip .off (supervisorPlan relaxedTrip .off) rfl unroutable (· = "plan")
    "intent"

end

end MapGo.Planning.TaskGraph
