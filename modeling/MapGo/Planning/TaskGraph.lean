import MapGo.Planning.Workflow

/-! The supervisor's task graph as an arbitrary validated graph, and the rounds in which its nodes
are executed. What a node returns or raises is given; it may depend on all that has happened. -/
namespace MapGo.Planning.TaskGraph

structure AgentPlanStep where
  stepId : String
  dependsOn : List String := []
  status : TaskStatus := .pending
  attemptCount : Nat := 0

/-- `validate_task_graph`, after the steps seen. -/
def validTaskGraph : List String → List AgentPlanStep → Bool
  | _, [] => true
  | seen, step :: steps =>
      step.stepId ∉ seen && step.dependsOn.all (· ∈ seen) &&
        validTaskGraph (step.stepId :: seen) steps

structure AgentExecutionPlan where
  steps : List AgentPlanStep
  validated : validTaskGraph [] steps = true

inductive NodeEvent where
  | started (stepId : String)
  | ended (stepId : String) (succeeded : Bool)
  deriving DecidableEq, Repr

/-- A run of the graph. Outputs are the values of nodes that have succeeded. -/
structure GraphRun (V : Type) where
  steps : List AgentPlanStep
  completed : List String
  outputs : List (String × V)
  pending : List String
  /-- History: the nodes that have started and ended. -/
  events : List NodeEvent := []

/-- How the execution ends: with the planner's plan, or raising. -/
inductive GraphExit (V E : Type) where
  | planned (plan : V)
  | missingStages
  | blocked (stepIds : List String)
  | failed (failure : E)
  | noPlan

/-- `_set_plan_status` -/
def setPlanStatus (status : TaskStatus) (begins : Bool) (steps : List AgentPlanStep)
    (stepId : String) : List AgentPlanStep :=
  steps.map fun step =>
    if step.stepId = stepId then { step with
      status := status
      attemptCount := step.attemptCount + if begins then 1 else 0 }
    else step

/-- One status after the other. -/
def setPlanStatuses (begins : Bool) (steps : List AgentPlanStep)
    (changes : List (String × TaskStatus)) : List AgentPlanStep :=
  changes.foldl (fun steps change => setPlanStatus change.2 begins steps change.1) steps

/-- The steps that the planning stages execute. -/
def subgraph (plan : AgentExecutionPlan) : List AgentPlanStep :=
  plan.steps.filter fun step => step.stepId ∉ ["intent", "critic", "final_answer"]

namespace GraphRun
variable {V E : Type}

/-- The nodes that may start. -/
def ready (graph : List AgentPlanStep) (run : GraphRun V) : List String :=
  (graph.filter fun step => step.stepId ∈ run.pending ∧ ∀ dependency ∈ step.dependsOn,
    dependency ∈ run.completed).map AgentPlanStep.stepId

def start (run : GraphRun V) (nodes : List String) : GraphRun V :=
  { run with
    steps := setPlanStatuses true run.steps (nodes.map fun node => (node, .running))
    events := run.events ++ nodes.map .started }

/-- The results of a round, in the order of its nodes. -/
def settle (run : GraphRun V) (results : List (String × Except E V)) : GraphRun V :=
  { run with
    steps := setPlanStatuses false run.steps <| results.map fun result =>
      (result.1, if result.2.isOk then .succeeded else .failed)
    completed := run.completed ++ results.filterMap fun result =>
      if result.2.isOk then some result.1 else none
    outputs := run.outputs ++ results.filterMap fun result =>
      result.2.toOption.map fun value => (result.1, value)
    pending := run.pending.filter (· ∉ results.map Prod.fst)
    events := run.events ++ results.map fun result => .ended result.1 result.2.isOk }

/-- What has not started is given up. -/
def block (run : GraphRun V) : GraphRun V :=
  { run with
    steps := setPlanStatuses false run.steps (run.pending.map fun node => (node, .blocked)) }

end GraphRun

/-- The first exception of a round. -/
def firstFailure {V E : Type} (results : List (String × Except E V)) : Option E :=
  results.findSome? fun result =>
    match result.2 with
    | .ok _ => none
    | .error failure => some failure

section execution
variable {V E : Type} (execute : GraphRun V → String → Except E V)

/-- The nodes of a round run side by side; each result is kept with its node. -/
def gather (run : GraphRun V) (nodes : List String) : List (String × Except E V) :=
  nodes.map fun node => (node, execute run node)

variable {execute}

@[simp] theorem map_fst_gather {run : GraphRun V} {nodes : List String} :
    (gather execute run nodes).map Prod.fst = nodes := by
  simp [gather, Function.comp_def]

theorem ready_subset {graph : List AgentPlanStep} {run : GraphRun V} {node : String}
    (member : node ∈ run.ready graph) : node ∈ run.pending := by
  obtain ⟨step, kept, rfl⟩ := List.mem_map.mp member
  have chosen := (List.mem_filter.mp kept).2
  exact (of_decide_eq_true chosen).1

/-- A round with a ready node leaves fewer nodes pending. -/
theorem pending_decreases {graph : List AgentPlanStep} {run : GraphRun V}
    (some : run.ready graph ≠ []) (results : List (String × Except E V))
    (same : results.map Prod.fst = run.ready graph) :
    ((run.start (run.ready graph)).settle results).pending.length < run.pending.length := by
  obtain ⟨node, member⟩ := List.exists_mem_of_ne_nil _ some
  apply List.length_filter_lt_length_iff_exists.mpr
  refine ⟨node, ready_subset member, ?_⟩
  simpa [same] using member

variable (execute)

/-- `while pending` -/
def executeRounds (graph : List AgentPlanStep) (run : GraphRun V) :
    Option (GraphExit V E) × GraphRun V :=
  if run.pending = [] then (none, run)
  else if run.ready graph = [] then (some (.blocked run.pending), run.block)
  else
    let started := run.start (run.ready graph)
    let results := gather execute started (run.ready graph)
    match firstFailure results with
    | some failure => (some (.failed failure), (started.settle results).block)
    | none => executeRounds graph (started.settle results)
termination_by run.pending.length
decreasing_by exact pending_decreases (by assumption) _ map_fst_gather

/-- The run before the first round. -/
def GraphRun.initial (plan : AgentExecutionPlan) (intent : V) : GraphRun V where
  steps := plan.steps.map fun step =>
    if step.stepId ∉ ["intent", "critic", "final_answer"] then
      { step with status := if step.attemptCount ≠ 0 then .retrying else .pending }
    else step
  completed := ["intent"]
  outputs := [("intent", intent)]
  pending := (subgraph plan).map AgentPlanStep.stepId

/-- `execute_planning_stages`; `isPlan` tells the results of the planner. -/
def executePlanningStages (isPlan : V → Bool) (plan : AgentExecutionPlan) (intent : V) :
    GraphExit V E × GraphRun V :=
  let steps := plan.steps.map AgentPlanStep.stepId
  if "search" ∈ steps ∧ "planner" ∈ steps then
    match executeRounds execute (subgraph plan) (GraphRun.initial plan intent) with
    | (some exit, run) => (exit, run)
    | (none, run) =>
        match run.outputs.lookup "planner" with
        | some result => if isPlan result then (.planned result, run) else (.noPlan, run)
        | none => (.noPlan, run)
  else (.missingStages, { GraphRun.initial plan intent with
    steps := plan.steps
    pending := [] })

end execution

/-- The nodes that have started, in order. -/
def starts (events : List NodeEvent) : List String :=
  events.filterMap fun event =>
    match event with
    | .started stepId => some stepId
    | .ended .. => none

/-- A changed step has the status of its last change, and any other is as it was. -/
theorem of_mem_setPlanStatuses {begins : Bool} {changes : List (String × TaskStatus)}
    {steps : List AgentPlanStep} {step : AgentPlanStep}
    (member : step ∈ setPlanStatuses begins steps changes) :
    ∃ old ∈ steps, step.stepId = old.stepId ∧
      ((step.stepId ∉ changes.map Prod.fst ∧ step = old) ∨ (step.stepId, step.status) ∈ changes) := by
  induction changes generalizing steps with
  | nil => exact ⟨step, member, rfl, .inl ⟨List.not_mem_nil, rfl⟩⟩
  | cons change changes ih =>
      obtain ⟨middle, inside, named, kept⟩ := ih member
      obtain ⟨old, original, rfl⟩ := List.mem_map.mp inside
      have same : step.stepId = old.stepId := by
        rw [named]
        split <;> rfl
      refine ⟨old, original, same, ?_⟩
      obtain ⟨absent, rfl⟩ | changed := kept
      · by_cases chosen : old.stepId = change.1
        · right
          simp [chosen]
        · left
          simp only [if_neg chosen] at absent ⊢
          refine ⟨?_, trivial⟩
          simpa [chosen] using absent
      · exact .inr (List.mem_cons_of_mem _ changed)

@[simp] theorem map_stepId_setPlanStatuses {begins : Bool} {changes : List (String × TaskStatus)}
    {steps : List AgentPlanStep} :
    (setPlanStatuses begins steps changes).map AgentPlanStep.stepId =
      steps.map AgentPlanStep.stepId := by
  induction changes generalizing steps with
  | nil => rfl
  | cons change changes ih =>
      have later : (setPlanStatuses begins (setPlanStatus change.2 begins steps change.1)
          changes).map AgentPlanStep.stepId =
            (setPlanStatus change.2 begins steps change.1).map AgentPlanStep.stepId := ih
      refine later.trans ?_
      rw [setPlanStatus, List.map_map]
      apply List.map_congr_left
      intro step _
      rw [Function.comp_apply]
      split <;> rfl

theorem nodup_of_validTaskGraph {seen : List String} {steps : List AgentPlanStep}
    (valid : validTaskGraph seen steps = true) :
    (steps.map AgentPlanStep.stepId).Nodup ∧ ∀ step ∈ steps, step.stepId ∉ seen := by
  induction steps generalizing seen with
  | nil => exact ⟨List.nodup_nil, fun _ member => by cases member⟩
  | cons step steps ih =>
      simp only [validTaskGraph, Bool.and_eq_true, decide_eq_true_eq] at valid
      obtain ⟨⟨unseen, _⟩, rest⟩ := valid
      obtain ⟨nodup, later⟩ := ih rest
      constructor
      · rw [List.map_cons, List.nodup_cons]
        refine ⟨?_, nodup⟩
        intro repeated
        obtain ⟨other, member, same⟩ := List.mem_map.mp repeated
        exact later other member (same ▸ List.mem_cons_self)
      · intro other member
        obtain rfl | further := List.mem_cons.mp member
        · exact unseen
        · exact fun early => later other further (List.mem_cons_of_mem _ early)

theorem subgraph_nodup (plan : AgentExecutionPlan) :
    ((subgraph plan).map AgentPlanStep.stepId).Nodup :=
  List.Nodup.sublist (List.filter_sublist.map _) (nodup_of_validTaskGraph plan.validated).1

/-- The nodes that the planning stages execute. -/
def nodes (plan : AgentExecutionPlan) : List String :=
  (subgraph plan).map AgentPlanStep.stepId

/-- No node starts twice, or before all its dependencies have succeeded; the intent is given. -/
structure Ordered (plan : AgentExecutionPlan) (events : List NodeEvent) : Prop where
  once : (starts events).Nodup
  known : ∀ node ∈ starts events, node ∈ nodes plan
  after : ∀ earlier later step, step ∈ subgraph plan →
    events = earlier ++ .started step.stepId :: later →
    ∀ dependency ∈ step.dependsOn, dependency = "intent" ∨ .ended dependency true ∈ earlier

/-- Every other step of the plan is left as it was. -/
structure Framed (plan : AgentExecutionPlan) (steps : List AgentPlanStep) : Prop where
  named : steps.map AgentPlanStep.stepId = plan.steps.map AgentPlanStep.stepId
  others : ∀ step ∈ steps, step.stepId ∉ nodes plan → step ∈ plan.steps

section rounds
variable {V E : Type} {plan : AgentExecutionPlan} {run : GraphRun V}
  {results : List (String × Except E V)}

/-- The invariant of the rounds; nodes that are no longer pending have one of the given statuses. -/
structure Settled (done : TaskStatus → Prop) (plan : AgentExecutionPlan) (run : GraphRun V) :
    Prop where
  ordered : Ordered plan run.events
  framed : Framed plan run.steps
  pending : ∀ node ∈ run.pending, node ∈ nodes plan
  unstarted : ∀ node ∈ nodes plan, node ∈ run.pending ↔ node ∉ starts run.events
  completed : ∀ node ∈ run.completed, node = "intent" ∨ .ended node true ∈ run.events
  ended : ∀ step ∈ run.steps, step.stepId ∈ nodes plan → step.stepId ∉ run.pending →
    done step.status

/-- Between two rounds all that has started has succeeded. -/
abbrev Going (plan : AgentExecutionPlan) (run : GraphRun V) : Prop :=
  Settled (· = .succeeded) plan run

@[simp] theorem starts_append {first second : List NodeEvent} :
    starts (first ++ second) = starts first ++ starts second :=
  List.filterMap_append

@[simp] theorem starts_started {ids : List String} : starts (ids.map .started) = ids := by
  induction ids with
  | nil => rfl
  | cons id ids ih => exact congrArg (id :: ·) ih

@[simp] theorem starts_ended :
    starts (results.map fun result => .ended result.1 result.2.isOk) = [] := by
  induction results with
  | nil => rfl
  | cons result results ih => exact ih

/-- Changes to the nodes leave the other steps as they were. -/
theorem Framed.setPlanStatuses {steps : List AgentPlanStep} (framed : Framed plan steps)
    {begins : Bool} {changes : List (String × TaskStatus)}
    (inside : ∀ node ∈ changes.map Prod.fst, node ∈ nodes plan) :
    Framed plan (setPlanStatuses begins steps changes) where
  named := map_stepId_setPlanStatuses.trans framed.named
  others := by
    intro step member other
    obtain ⟨old, original, same, ⟨_, rfl⟩ | changed⟩ := of_mem_setPlanStatuses member
    · exact framed.others step original other
    · exact absurd (inside _ (List.mem_map_of_mem changed)) other

theorem ready_nodup : (run.ready (subgraph plan)).Nodup :=
  List.Nodup.sublist (List.filter_sublist.map _) (subgraph_nodup plan)

/-- A ready step has all its dependencies completed. -/
theorem completed_of_ready {step : AgentPlanStep} (member : step ∈ subgraph plan)
    (ready : step.stepId ∈ run.ready (subgraph plan)) :
    ∀ dependency ∈ step.dependsOn, dependency ∈ run.completed := by
  obtain ⟨other, kept, same⟩ := List.mem_map.mp ready
  obtain ⟨inside, chosen⟩ := List.mem_filter.mp kept
  obtain rfl : other = step :=
    List.inj_on_of_nodup_map (subgraph_nodup plan) inside member same
  exact (of_decide_eq_true chosen).2

/-- An item of two lists one after the other is in the first or in the second. -/
theorem split_append {α : Type} {first second earlier later : List α} {item : α}
    (split : first ++ second = earlier ++ item :: later) :
    (∃ rest, first = earlier ++ item :: rest) ∨
      ∃ more, earlier = first ++ more ∧ second = more ++ item :: later := by
  obtain ⟨more, rfl, rest⟩ | ⟨rest, rfl, same⟩ := List.append_eq_append_iff.mp split
  · exact .inr ⟨more, rfl, rest⟩
  · cases rest with
    | nil => exact .inr ⟨[], by simp, same.symm⟩
    | cons head rest =>
        obtain ⟨rfl, _⟩ := List.cons.inj same
        exact .inl ⟨rest, rfl⟩

/-- Ready nodes may start. -/
theorem Going.start_ordered (going : Going plan run) :
    Ordered plan (run.events ++ (run.ready (subgraph plan)).map .started) where
  once := by
    rw [starts_append, starts_started]
    refine List.Nodup.append going.ordered.once ready_nodup ?_
    intro node started ready
    have waiting := ready_subset ready
    exact (going.unstarted node (going.pending node waiting)).mp waiting started
  known := by
    intro node member
    rw [starts_append, starts_started, List.mem_append] at member
    obtain started | ready := member
    · exact going.ordered.known node started
    · exact going.pending node (ready_subset ready)
  after := by
    intro earlier later step member split dependency needs
    obtain ⟨rest, before⟩ | ⟨more, rfl, now⟩ := split_append split
    · exact going.ordered.after earlier rest step member before dependency needs
    · have ready : step.stepId ∈ run.ready (subgraph plan) := by
        have inside : NodeEvent.started step.stepId ∈
            (run.ready (subgraph plan)).map NodeEvent.started := by
          rw [now]
          exact List.mem_append_right _ List.mem_cons_self
        obtain ⟨node, found, same⟩ := List.mem_map.mp inside
        exact NodeEvent.started.inj same ▸ found
      apply (going.completed dependency (completed_of_ready member ready dependency needs)).imp_right
      exact fun ended => List.mem_append_left _ ended

/-- Ends do not matter for the order of the starts. -/
theorem Ordered.end {events : List NodeEvent} (ordered : Ordered plan events) :
    Ordered plan (events ++ results.map fun result => .ended result.1 result.2.isOk) where
  once := by simpa using ordered.once
  known := by simpa using ordered.known
  after := by
    intro earlier later step member split dependency needs
    obtain ⟨rest, before⟩ | ⟨more, rfl, now⟩ := split_append split
    · exact ordered.after earlier rest step member before dependency needs
    · have impossible : NodeEvent.started step.stepId ∈
          results.map fun result => NodeEvent.ended result.1 result.2.isOk := by
        rw [now]
        exact List.mem_append_right _ List.mem_cons_self
      obtain ⟨_, _, same⟩ := List.mem_map.mp impossible
      cases same

/-- A round of ready nodes with results that leave the given statuses. -/
theorem Going.round (done : TaskStatus → Prop) (going : Going plan run)
    (whole : results.map Prod.fst = run.ready (subgraph plan)) (succeeded : done .succeeded)
    (ends : ∀ result ∈ results, done (if result.2.isOk then .succeeded else .failed)) :
    Settled done plan ((run.start (run.ready (subgraph plan))).settle results) := by
  have ready (node) (member : node ∈ run.ready (subgraph plan)) : node ∈ nodes plan :=
    going.pending node (ready_subset member)
  refine ⟨going.start_ordered.end, ?_, ?_, ?_, ?_, ?_⟩
  · apply Framed.setPlanStatuses
    · apply going.framed.setPlanStatuses
      intro node member
      simp only [List.map_map, Function.comp_def, List.map_id'] at member
      exact ready node member
    · intro node member
      simp only [List.map_map, Function.comp_def, ← whole] at member ready
      exact ready node member
  · intro node member
    exact going.pending node (List.mem_filter.mp member).1
  · intro node inside
    have before := going.unstarted node inside
    simp only [GraphRun.settle, GraphRun.start, List.mem_filter, whole, starts_append,
      starts_started, starts_ended, List.append_nil, List.mem_append, decide_eq_true_eq, before,
      not_or]
  · intro node member
    obtain earlier | now := List.mem_append.mp member
    · apply (going.completed node earlier).imp_right
      exact fun ended => List.mem_append_left _ (List.mem_append_left _ ended)
    · obtain ⟨result, found, kept⟩ := List.mem_filterMap.mp now
      split at kept
      · rename_i passed
        obtain rfl := Option.some.inj kept
        refine .inr (List.mem_append_right _ (List.mem_map.mpr ⟨result, found, ?_⟩))
        rw [passed]
      · cases kept
  · intro step member inside gone
    obtain ⟨old, original, same, ⟨absent, rfl⟩ | changed⟩ := of_mem_setPlanStatuses member
    · -- The step is not in this round.
      simp only [List.map_map, Function.comp_def] at absent
      obtain ⟨older, first, _, ⟨_, rfl⟩ | started⟩ := of_mem_setPlanStatuses original
      · have earlier : step.stepId ∉ run.pending := by
          intro waiting
          exact gone (List.mem_filter.mpr ⟨waiting, by simpa using absent⟩)
        rw [going.ended step first inside earlier]
        exact succeeded
      · obtain ⟨node, found, pair⟩ := List.mem_map.mp started
        obtain ⟨rfl, _⟩ := Prod.mk.inj pair
        exact absurd (whole ▸ found) absent
    · obtain ⟨result, found, pair⟩ := List.mem_map.mp changed
      obtain ⟨_, status⟩ := Prod.mk.inj pair
      rw [← status]
      exact ends result found

/-- Giving up what is pending. -/
theorem Settled.block {done : TaskStatus → Prop} (settled : Settled done plan run) :
    Framed plan run.block.steps ∧ ∀ step ∈ run.block.steps, step.stepId ∈ nodes plan →
      (step.stepId ∉ starts run.events ∧ step.status = .blocked) ∨
        (step.stepId ∈ starts run.events ∧ done step.status) := by
  have keys : (run.pending.map fun node => (node, TaskStatus.blocked)).map Prod.fst =
      run.pending := by simp [Function.comp_def]
  constructor
  · apply settled.framed.setPlanStatuses
    rw [keys]
    exact settled.pending
  · intro step member inside
    have waiting := settled.unstarted step.stepId inside
    obtain ⟨old, original, _, ⟨absent, rfl⟩ | changed⟩ := of_mem_setPlanStatuses member
    · rw [keys] at absent
      exact .inr ⟨not_not.mp fun unstarted => absent (waiting.mpr unstarted),
        settled.ended step original inside absent⟩
    · obtain ⟨node, found, pair⟩ := List.mem_map.mp changed
      obtain ⟨rfl, status⟩ := Prod.mk.inj pair
      exact .inl ⟨waiting.mp found, status.symm⟩

/-- The execution raises because a node has failed or no node is ready. -/
def GraphExit.stops : GraphExit V E → Bool
  | .blocked _ | .failed _ => true
  | .planned _ | .missingStages | .noPlan => false

/-- How an execution leaves the nodes of the graph. -/
structure Executed (plan : AgentExecutionPlan) (exit : GraphExit V E) (run : GraphRun V) :
    Prop where
  ordered : Ordered plan run.events
  framed : Framed plan run.steps
  stopped : exit.stops = true → ∀ step ∈ run.steps, step.stepId ∈ nodes plan →
    step.status ≠ .running ∧ (step.stepId ∉ starts run.events → step.status = .blocked)
  succeeded : ∀ result, exit = .planned result → ∀ step ∈ run.steps,
    step.stepId ∈ nodes plan → step.status = .succeeded

/-- An execution that gives up what is pending. -/
theorem Settled.executed {done : TaskStatus → Prop} (settled : Settled done plan run)
    (rests : ¬ done .running) {exit : GraphExit V E} (stops : exit.stops = true) :
    Executed plan exit run.block where
  ordered := settled.ordered
  framed := settled.block.1
  stopped := by
    intro _ step member inside
    obtain ⟨unstarted, blocked⟩ | ⟨started, ended⟩ := settled.block.2 step member inside
    · rw [blocked]
      exact ⟨by decide, fun _ => rfl⟩
    · refine ⟨?_, fun unstarted => absurd started unstarted⟩
      intro running
      exact rests (running ▸ ended)
  succeeded := by
    rintro result rfl
    cases stops

theorem isOk_of_firstFailure (passed : firstFailure results = none) :
    ∀ result ∈ results, result.2.isOk = true := by
  intro result member
  have kept := List.findSome?_eq_none_iff.mp passed result member
  cases outcome : result.2 with
  | ok => rfl
  | error =>
      rw [outcome] at kept
      cases kept

theorem executeRounds_executed (execute : GraphRun V → String → Except E V)
    (going : Going plan run) :
    (executeRounds execute (subgraph plan) run).1.elim
      (Going plan (executeRounds execute (subgraph plan) run).2 ∧
        (executeRounds execute (subgraph plan) run).2.pending = [])
      fun exit => Executed plan exit (executeRounds execute (subgraph plan) run).2 := by
  fun_induction executeRounds execute (subgraph plan) run with
  | case1 run finished => exact ⟨going, finished⟩
  | case2 run waiting stuck => exact going.executed (by decide) rfl
  | case3 run waiting ready started results failure failed =>
      have settled : Settled (fun status => status = .succeeded ∨ status = .failed) plan
          (started.settle results) := by
        apply going.round (fun status => status = .succeeded ∨ status = .failed) map_fst_gather
          (.inl rfl)
        intro result _
        split
        · exact .inl rfl
        · exact .inr rfl
      exact settled.executed (by decide) rfl
  | case4 run waiting ready started results passed ih =>
      apply ih
      apply going.round (fun status => status = .succeeded) map_fst_gather rfl
      intro result member
      rw [isOk_of_firstFailure passed result member]
      rfl

theorem initial_going (plan : AgentExecutionPlan) (intent : V) :
    Going plan (GraphRun.initial plan intent) where
  ordered := {
    once := List.nodup_nil
    known := fun _ member => by cases member
    after := by
      intro earlier later step _ split
      simp [GraphRun.initial] at split }
  framed := {
    named := by
      rw [GraphRun.initial, List.map_map]
      apply List.map_congr_left
      intro step _
      rw [Function.comp_apply]
      split <;> rfl
    others := by
      intro step member other
      obtain ⟨old, original, rfl⟩ := List.mem_map.mp member
      split
      · rename_i chosen
        rw [if_pos chosen] at other
        refine absurd (List.mem_map.mpr ⟨old, ?_, rfl⟩) other
        exact List.mem_filter.mpr ⟨original, decide_eq_true chosen⟩
      · exact original }
  pending := fun _ member => member
  unstarted := by
    intro node inside
    exact ⟨fun _ => List.not_mem_nil, fun _ => inside⟩
  completed := by
    intro node member
    exact .inl (List.mem_singleton.mp member)
  ended := by
    intro step _ inside started
    exact absurd inside started

/-- Whatever its nodes return or raise: an execution of a validated graph ends, starts each node of
the subgraph at most once and after its dependencies, leaves none running and blocks what has not
started when it raises for a node or a standstill, and returns only when all have succeeded. -/
theorem task_graph_executed (execute : GraphRun V → String → Except E V) (isPlan : V → Bool)
    (plan : AgentExecutionPlan) (intent : V) :
    Executed plan (executePlanningStages execute isPlan plan intent).1
      (executePlanningStages execute isPlan plan intent).2 := by
  have rounds := executeRounds_executed execute (initial_going plan intent)
  unfold executePlanningStages
  dsimp only
  split
  · split
    · rename_i exit run ran
      rwa [ran] at rounds
    · rename_i run ran
      rw [ran] at rounds
      obtain ⟨going, finished⟩ := rounds
      have succeeded (step) (member : step ∈ run.steps) (inside : step.stepId ∈ nodes plan) :
          step.status = .succeeded := by
        apply going.ended step member inside
        rw [finished]
        exact List.not_mem_nil
      have unstopped (exit : GraphExit V E) (none : exit.stops = false) :
          Executed plan exit run := by
        refine ⟨going.ordered, going.framed, fun stops => ?_, fun _ _ => succeeded⟩
        rw [none] at stops
        cases stops
      split
      · split
        · exact unstopped _ rfl
        · exact unstopped _ rfl
      · exact unstopped _ rfl
  · have start := initial_going plan intent
    refine ⟨start.ordered, ⟨rfl, fun _ member _ => member⟩, fun stops => ?_, fun _ same => ?_⟩
    · cases stops
    · cases same

end rounds

end MapGo.Planning.TaskGraph
