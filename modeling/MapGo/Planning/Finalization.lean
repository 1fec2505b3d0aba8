import MapGo.Planning.Operations
import MapGo.Planning.Protocol
import MapGo.Shared.Protocol

/-! What is left of a planning run that has failed: its rows, the exception of the caller and its
shared state. -/
namespace MapGo.Planning

open Exits Run
open MapGo.Shared (AgentType SharedState SharedStateError AgentSharedStateManager)

/-- A property of runs that have not failed yet. Only the status, the rows and the nodes of the task
graph matter to it, and no operation before the handler takes it away. -/
structure Workflow.Stable {V : Type} (keep : Workflow V → Prop) : Prop where
  frame : ∀ {w later : Workflow V}, later.status = w.status → later.record = w.record →
    later.tasks = w.tasks → keep w → keep later
  committed : ∀ w, keep w → keep { w with record := w.rows }
  retasked : ∀ w tasks, tasks.map TaskNode.key = w.tasks.map TaskNode.key → keep w →
    keep { w with tasks := tasks }
  restated : ∀ w status, status ≠ .failed → keep w → keep { w with status := status }

theorem Workflow.Stable.ambient {V : Type} {keep : Workflow V → Prop}
    (stable : Workflow.Stable keep) : Workflow.Ambient keep :=
  fun w _ _ _ _ => stable.frame (w := w) rfl rfl rfl

theorem Workflow.Stable.checkpoint {V : Type} {keep : Workflow V → Prop}
    {service : PlanningService V} (stable : Workflow.Stable keep) : Keeps keep service.checkpoint :=
  keeps_checkpoint stable.ambient stable.committed

section stable
variable {V α : Type} {keep : Workflow V → Prop} (stable : Workflow.Stable keep)
  {service : PlanningService V} {script : WorkflowScript V}
include stable

theorem keeps_dispatch {sender receiver : AgentEndpoint} {artifactType : ArtifactType} :
    Keeps keep (dispatch sender receiver artifactType : Run V Unit) :=
  Keeps.bind (keeps_work stable.ambient) fun _ => keeps_modify fun w => stable.frame (w := w) rfl rfl rfl

theorem keeps_consume {receiver : AgentEndpoint} {expected : List ArtifactType} :
    Keeps keep (consume receiver expected : Run V Unit) := by
  refine ends_get fun w kept => ?_
  split
  · exact ends_set fun _ _ => stable.frame (w := w) rfl rfl rfl kept
  · exact ends_throw fun _ same => same ▸ kept

theorem keeps_record {execution : AgentExecution α} {toolCalls : Nat} :
    Keeps keep (Run.record execution toolCalls : Run V Unit) := by
  refine Keeps.bind (keeps_modify fun w => stable.frame (w := w) rfl rfl rfl) fun _ => ?_
  split
  · exact keeps_throw
  · exact keeps_modify fun w => stable.frame (w := w) rfl rfl rfl

theorem keeps_setPlanStatus {key : TaskKey} {status : TaskStatus} {begins : Bool} :
    Keeps keep (setPlanStatus key status begins : Run V Unit) := by
  refine keeps_modify fun w => stable.retasked w _ ?_
  rw [List.map_map]
  refine List.map_congr_left fun task _ => ?_
  simp only [Function.comp_apply]
  split <;> rfl

theorem keeps_start : Keeps keep service.start := by
  refine Keeps.bind (keeps_initialState stable.ambient) fun state => ?_
  refine Keeps.bind (keeps_modify fun w => stable.frame (w := w) rfl rfl rfl) fun _ => ?_
  refine Keeps.bind (keeps_dispatch stable) fun _ => Keeps.bind (keeps_consume stable) fun _ => ?_
  refine Keeps.bind (keeps_work stable.ambient) fun _ => Keeps.bind (keeps_dispatch stable) fun _ => ?_
  exact Keeps.bind (keeps_record stable) fun _ => stable.checkpoint

theorem keeps_understand : Keeps keep (service.understand script) := by
  refine Keeps.bind (keeps_consume stable) fun _ => Keeps.bind (keeps_agent stable.ambient) fun _ => ?_
  refine Keeps.bind (keeps_write stable.ambient) fun _ => Keeps.bind (keeps_dispatch stable) fun _ => ?_
  exact Keeps.bind (keeps_record stable) fun _ => Keeps.bind stable.checkpoint fun _ => keeps_pure

theorem keeps_recover {attempt : Nat} {fallbackAvailable : Bool} :
    Keeps keep (service.recover script attempt fallbackAvailable) := by
  refine Keeps.bind (keeps_dispatch stable) fun _ => Keeps.bind (keeps_consume stable) fun _ => ?_
  refine Keeps.bind (keeps_work stable.ambient) fun _ => Keeps.bind (keeps_write stable.ambient) fun _ => ?_
  exact Keeps.bind (keeps_record stable) fun _ => Keeps.bind stable.checkpoint fun _ => keeps_pure

theorem keeps_searchAttempts {search : SearchScript} {index : Nat} (remaining attempt : Nat) :
    Keeps keep (service.searchAttempts script search index remaining attempt) := by
  induction remaining generalizing attempt with
  | zero => exact keeps_pure
  | succ remaining ih =>
      refine Keeps.bind (keeps_recover stable) fun action => ?_
      split
      · refine Keeps.bind (keeps_work stable.ambient) fun _ => ?_
        split
        · exact keeps_pure
        · exact Keeps.bind (ih _) fun _ => keeps_pure
      · exact keeps_pure

theorem keeps_searchFailures {search : SearchScript} (failures : List Nat) :
    Keeps keep (service.searchFailures script search failures) := by
  induction failures with
  | nil => exact keeps_pure
  | cons index rest ih =>
      exact Keeps.bind (keeps_searchAttempts stable _ _) fun _ => Keeps.bind ih fun _ => keeps_pure

theorem keeps_runSearch {graph : List AgentPlanStep} {solve : SolveScript} :
    Keeps keep (service.runSearch script graph solve) := by
  have searched : Keeps keep (service.runSearchAgent script solve.search) := by
    refine Keeps.bind (keeps_work stable.ambient) fun _ => ?_
    refine Keeps.bind (keeps_searchFailures stable _) fun _ => ?_
    exact Keeps.bind (keeps_work stable.ambient) fun _ => keeps_pure
  refine Keeps.bind (keeps_consume stable) fun _ => Keeps.bind (keeps_read stable.ambient) fun _ => ?_
  refine Keeps.bind (keeps_work stable.ambient) fun _ => Keeps.bind searched fun toolCalls => ?_
  refine Keeps.bind (keeps_agent stable.ambient) fun _ => Keeps.bind (keeps_write stable.ambient) fun _ => ?_
  refine Keeps.bind (keeps_dispatch stable) fun _ => ?_
  refine Keeps.bind (keeps_modify fun w => stable.frame (w := w) rfl rfl rfl) fun _ => ?_
  exact keeps_record stable

theorem keeps_checkSafety {solve : SolveScript} : Keeps keep (service.checkSafety script solve) := by
  refine Keeps.bind (keeps_consume stable) fun _ => Keeps.bind (keeps_read stable.ambient) fun _ => ?_
  refine Keeps.bind (keeps_agent stable.ambient) fun _ => Keeps.bind (keeps_write stable.ambient) fun _ => ?_
  exact Keeps.bind (keeps_dispatch stable) fun _ => keeps_record stable

theorem keeps_placed {outcome : Outcome α} : Keeps keep (service.placed outcome) := by
  have exchanged : Keeps keep (exchange (V := V)) :=
    Keeps.bind (keeps_work stable.ambient) fun _ => keeps_modify fun w => stable.frame (w := w) rfl rfl rfl
  unfold PlanningService.placed
  split
  · refine Keeps.bind exchanged fun _ => Keeps.bind (keeps_agent stable.ambient) fun _ => ?_
    exact Keeps.bind exchanged fun _ => keeps_pure
  · exact keeps_agent stable.ambient

theorem keeps_runPlanner {solve : SolveScript} : Keeps keep (service.runPlanner script solve) := by
  refine Keeps.bind (keeps_consume stable) fun _ => Keeps.bind (keeps_read stable.ambient) fun _ => ?_
  refine Keeps.bind (keeps_placed stable) fun _ => Keeps.bind (keeps_write stable.ambient) fun _ => ?_
  refine keeps_get fun w => Keeps.bind (keeps_dispatch stable) fun _ => ?_
  refine Keeps.bind (keeps_record stable) fun _ => ?_
  exact Keeps.bind (keeps_modify fun w => stable.frame (w := w) rfl rfl rfl) fun _ => keeps_pure

theorem keeps_executePlanStep {graph : List AgentPlanStep} {solve : SolveScript} (step : StepId) :
    Keeps keep (service.executePlanStep script graph solve step) := by
  cases step with
  | search => exact Keeps.bind (keeps_runSearch stable) fun _ => keeps_pure
  | weather =>
      refine Keeps.bind (Keeps.bind (keeps_work stable.ambient) fun _ => ?_) fun _ => keeps_pure
      cases solve.weather with
      | some => exact keeps_pure
      | none => exact keeps_throw
  | safetyCheck => exact Keeps.bind (keeps_checkSafety stable) fun _ => keeps_pure
  | planner => exact Keeps.bind (keeps_runPlanner stable) fun _ => keeps_pure

omit stable in
theorem keeps_gather {progs : List (Run V α)} (each : ∀ prog ∈ progs, Keeps keep prog) :
    Keeps keep (gather progs) := by
  induction progs with
  | nil => exact keeps_pure
  | cons prog rest ih =>
      refine Keeps.bind (each prog List.mem_cons_self).captured fun _ => ?_
      refine Keeps.bind (ih fun other member => ?_) fun _ => keeps_pure
      exact each other (List.mem_cons_of_mem _ member)

theorem keeps_executeRounds {graph : List AgentPlanStep} {solve : SolveScript} (fuel : Nat)
    (pending completed : List StepId) (plan : Option AIPlanResult) :
    Keeps keep (service.executeRounds script graph solve fuel pending completed plan) := by
  have restatused (status : TaskStatus) (begins : Bool) (steps : List StepId) :
      Keeps keep (setAll steps status begins) := by
    refine keeps_modify fun w kept => ?_
    induction steps generalizing w with
    | nil => exact kept
    | cons step rest ih => exact ih _ (keeps_setPlanStatus stable w kept)
  have settled (results : List (StepId × Except Failure (Option AIPlanResult))) :
      Keeps keep (settle results) := by
    refine keeps_modify fun w kept => ?_
    induction results generalizing w with
    | nil => exact kept
    | cons result rest ih => exact ih _ (keeps_setPlanStatus stable w kept)
  induction fuel generalizing pending completed plan with
  | zero => exact keeps_throw
  | succ fuel ih =>
      unfold PlanningService.executeRounds
      dsimp only
      split
      · exact keeps_pure
      · split
        · exact Keeps.bind (restatused _ _ _) fun _ => keeps_throw
        · refine Keeps.bind (restatused _ _ _) fun _ => Keeps.bind stable.checkpoint fun _ => ?_
          refine Keeps.bind (keeps_gather fun prog member => ?_) fun results => ?_
          · obtain ⟨step, -, rfl⟩ := List.mem_map.mp member
            exact keeps_executePlanStep stable step
          · refine Keeps.bind (settled _) fun _ => ?_
            split
            · refine Keeps.bind (restatused _ _ _) fun _ => ?_
              exact Keeps.bind stable.checkpoint fun _ => keeps_throw
            · exact Keeps.bind stable.checkpoint fun _ => ih _ _ _

theorem keeps_executePlanningStages {intent : PlanIntent} {solve : SolveScript} :
    Keeps keep (service.executePlanningStages script intent solve) := by
  have reopens : Keeps keep (modify (PlanningService.reopened (V := V) intent.graph) : Run V PUnit) := by
    refine keeps_modify fun w => stable.retasked w _ ?_
    rw [List.map_map]
    refine List.map_congr_left fun task _ => ?_
    simp only [Function.comp_apply]
    split <;> rfl
  refine Keeps.bind reopens fun _ => Keeps.bind stable.checkpoint fun _ => ?_
  refine Keeps.bind (keeps_executeRounds stable _ _ _ _) fun plan => ?_
  cases plan with
  | some result => exact keeps_pure
  | none => exact keeps_throw

theorem keeps_review {plan : Plan} {outcome : Outcome ReviewReport} :
    Keeps keep (service.review script plan outcome) := by
  have failedCritic (failure : Failure) : Keeps keep (service.failedCritic failure) := by
    unfold PlanningService.failedCritic
    split
    · exact keeps_throw
    · refine Keeps.bind (keeps_setPlanStatus stable) fun _ => ?_
      exact Keeps.bind stable.checkpoint fun _ => keeps_throw
  have completes (execution : AgentExecution ReviewReport) : Keeps keep (do
      let reached ← get
      if reached.orchestrator.settings.maxAgentWorkflowCostUsd <
          reached.orchestrator.totalCostUsd + execution.estimatedCostUsd then do
        modify fun w => { w with status := .budgetExceeded }
        setPlanStatus .critic .failed false
        service.checkpoint
        pure none
      else do
        service.write script .critic "critic_reviewed" ["evaluation_result"]
        dispatch .critic .supervisor .reviewReport
        Run.record execution 0
        modify fun w =>
          let completed := ⟨w.orchestrator.solves, plan, execution.output⟩
          { w with orchestrator :=
              { w.orchestrator with reviews := w.orchestrator.reviews ++ [completed] } }
        setPlanStatus .critic .succeeded false
        service.checkpoint
        pure (some execution.output) : Run V (Option ReviewReport)) := by
    refine keeps_get fun reached => ?_
    split
    · refine Keeps.bind (keeps_modify fun w => stable.restated w _ (by decide)) fun _ => ?_
      refine Keeps.bind (keeps_setPlanStatus stable) fun _ => ?_
      exact Keeps.bind stable.checkpoint fun _ => keeps_pure
    · refine Keeps.bind (keeps_write stable.ambient) fun _ => Keeps.bind (keeps_dispatch stable) fun _ => ?_
      refine Keeps.bind (keeps_record stable) fun _ => ?_
      refine Keeps.bind (keeps_modify fun w => stable.frame (w := w) rfl rfl rfl) fun _ => ?_
      refine Keeps.bind (keeps_setPlanStatus stable) fun _ => ?_
      exact Keeps.bind stable.checkpoint fun _ => keeps_pure
  refine keeps_get fun w => ?_
  split
  · refine Keeps.bind (keeps_setPlanStatus stable) fun _ => ?_
    refine Keeps.bind stable.checkpoint fun _ => Keeps.bind (keeps_consume stable) fun _ => ?_
    refine Keeps.bind (keeps_read stable.ambient) fun _ => Keeps.bind (keeps_work stable.ambient) fun _ => ?_
    refine Keeps.bind (keeps_placed stable).captured fun answer => ?_
    cases answer with
    | ok execution => exact completes execution
    | error failure => exact Keeps.bind (failedCritic failure) completes
  · refine Keeps.bind (keeps_setPlanStatus stable) fun _ => ?_
    exact Keeps.bind stable.checkpoint fun _ => keeps_pure

theorem keeps_applySoftAdjustments {report : ReviewReport} :
    Keeps keep (service.applySoftAdjustments script report) := by
  unfold PlanningService.applySoftAdjustments
  split
  · exact keeps_pure
  · refine Keeps.bind (keeps_modify fun w kept => ?_) fun _ => ?_
    · refine stable.retasked { w with orchestrator := _ } _ ?_ (stable.frame (w := w) rfl rfl rfl kept)
      rw [List.map_map]
      refine List.map_congr_left fun task _ => ?_
      simp only [Function.comp_apply]
      split <;> rfl
    · refine Keeps.bind (keeps_consume stable) fun _ => Keeps.bind (keeps_read stable.ambient) fun _ => ?_
      refine Keeps.bind (keeps_work stable.ambient) fun _ => Keeps.bind (keeps_write stable.ambient) fun _ => ?_
      exact Keeps.bind (keeps_dispatch stable) fun _ => stable.checkpoint

theorem keeps_close {result : AIPlanResult} {status : TraceStatus} (alive : status ≠ .failed) :
    Keeps keep (service.close script result status) := by
  have finalizes : Keeps keep (service.finalize script) := by
    refine Keeps.bind (keeps_setPlanStatus stable) fun _ => ?_
    refine Keeps.bind stable.checkpoint fun _ => ?_
    refine Keeps.bind (keeps_modify fun w => stable.frame (w := w) rfl rfl rfl) fun _ => ?_
    refine Keeps.bind (keeps_write stable.ambient) fun _ => Keeps.bind (keeps_work stable.ambient) fun _ => ?_
    refine Keeps.bind (keeps_dispatch stable) fun _ => Keeps.bind (keeps_record stable) fun _ => ?_
    refine Keeps.bind (keeps_setPlanStatus stable) fun _ => Keeps.bind (keeps_read stable.ambient) fun _ => ?_
    exact stable.checkpoint
  refine Keeps.bind finalizes fun _ => Keeps.bind (keeps_modify fun w kept => ?_) fun _ => keeps_pure
  split
  · exact stable.restated w _ alive kept
  · exact kept

theorem keeps_reviewed {intent : PlanIntent} {result : AIPlanResult} :
    Keeps keep (service.reviewed script intent result) := by
  refine Keeps.bind (keeps_review stable) fun review => ?_
  dsimp only
  cases review with
  | none => exact keeps_pure
  | some review =>
      refine keeps_get fun w => ?_
      split
      · refine Keeps.bind (keeps_applySoftAdjustments stable) fun _ => ?_
        refine Keeps.bind (keeps_executePlanningStages stable) fun result => ?_
        refine Keeps.bind (keeps_review stable) fun second => ?_
        cases second <;> exact keeps_pure
      · exact keeps_pure

end stable

namespace Workflow
variable {V : Type}

/-- A run that has not failed: its rows are those of its task graph. -/
structure Live (w : Workflow V) : Prop where
  status : w.status ≠ .failed
  record : w.record.status ≠ .failed
  known : ∀ key, (w.record.tasks key).isSome → key ∈ w.tasks.map TaskNode.key

/-- There is no task graph yet. -/
structure Fresh (w : Workflow V) : Prop where
  live : w.Live
  unplanned : w.tasks = []

theorem rows_tasks {w : Workflow V} {key : TaskKey}
    (known : ∀ key, (w.record.tasks key).isSome → key ∈ w.tasks.map TaskNode.key) :
    w.rows.tasks key = (w.tasks.find? fun task => task.key = key).map TaskNode.status := by
  unfold rows
  dsimp only
  cases found : w.tasks.find? fun task => task.key = key with
  | some task => rfl
  | none =>
      cases stored : w.record.tasks key with
      | none => rfl
      | some status =>
          obtain ⟨task, member, same⟩ := List.mem_map.mp (known key (by rw [stored]; rfl))
          have apart := List.find?_eq_none.mp found task member
          exact absurd (decide_eq_true same) apart

/-- The rows of a failed trace have no task running. -/
theorem failedTrace_rows {w : Workflow V}
    (known : ∀ key, (w.record.tasks key).isSome → key ∈ w.tasks.map TaskNode.key) :
    w.failedTrace.rows.status = .failed ∧
      ∀ key, w.failedTrace.rows.tasks key ≠ some .running := by
  refine ⟨rfl, fun key running => ?_⟩
  rw [rows_tasks] at running
  · obtain ⟨task, found, status⟩ := Option.map_eq_some_iff.mp running
    obtain ⟨before, -, rfl⟩ := List.mem_map.mp (List.mem_of_find?_eq_some found)
    dsimp only at status
    split at status <;> simp_all
  · intro key stored
    have before := known key stored
    rw [failedTrace, List.map_map]
    exact before

theorem live_stable : Stable (Live (V := V)) where
  frame status record tasks live :=
    ⟨status ▸ live.status, record ▸ live.record, record ▸ tasks ▸ live.known⟩
  committed w live := by
    refine ⟨live.status, live.status, fun key stored => ?_⟩
    have found := rows_tasks live.known ▸ stored
    rw [Option.isSome_map] at found
    obtain ⟨task, found⟩ := Option.isSome_iff_exists.mp found
    refine List.mem_map.mpr ⟨task, List.mem_of_find?_eq_some found, ?_⟩
    simpa using List.find?_some found
  retasked w tasks same live := ⟨live.status, live.record, fun key stored => same ▸ live.known key stored⟩
  restated w status alive live := ⟨alive, live.record, live.known⟩

theorem fresh_stable : Stable (Fresh (V := V)) where
  frame status record tasks fresh :=
    ⟨live_stable.frame status record tasks fresh.live, tasks.trans fresh.unplanned⟩
  committed w fresh := ⟨live_stable.committed w fresh.live, fresh.unplanned⟩
  retasked w tasks same fresh := by
    refine ⟨live_stable.retasked w tasks same fresh.live, ?_⟩
    rw [fresh.unplanned, List.map_nil] at same
    exact List.map_eq_nil_iff.mp same
  restated w status alive fresh := ⟨live_stable.restated w status alive fresh.live, fresh.unplanned⟩

end Workflow

section live
variable {V : Type} {service : PlanningService V} {script : WorkflowScript V}

theorem planNext_live {intent : PlanIntent} :
    Ends Workflow.Fresh (service.planNext intent) (fun _ => Workflow.Live) (fun _ => Workflow.Live) := by
  have stable := Workflow.fresh_stable (V := V)
  refine Ends.bind ((keeps_consume stable).ends fun _ => Workflow.Fresh.live) fun _ => ?_
  refine Ends.bind ((keeps_read stable.ambient).ends fun _ => Workflow.Fresh.live) fun _ => ?_
  refine Ends.bind ((keeps_work stable.ambient).ends fun _ => Workflow.Fresh.live) fun _ => ?_
  refine Ends.bind (m := fun _ => Workflow.Live) (ends_modify fun w fresh => ?_) fun _ => ?_
  · refine ⟨fresh.live.status, fresh.live.record, fun key stored => ?_⟩
    have known := fresh.live.known key stored
    rw [fresh.unplanned] at known
    exact absurd known List.not_mem_nil
  · have stable := Workflow.live_stable (V := V)
    refine Keeps.bind (keeps_setPlanStatus stable) fun _ => ?_
    refine Keeps.bind (keeps_dispatch stable) fun _ => Keeps.bind (keeps_record stable) fun _ => ?_
    exact stable.checkpoint

/-- The `try` block never writes that the run has failed. -/
theorem attempt_live {request : AIPlanRequest} :
    Ends Workflow.Fresh (service.attempt script request) (fun _ => Workflow.Live)
      (fun _ => Workflow.Live) := by
  have fresh := Workflow.fresh_stable (V := V)
  have stable := Workflow.live_stable (V := V)
  have planned : Ends Workflow.Fresh (service.planOnce script request) (fun _ => Workflow.Live)
      (fun _ => Workflow.Live) := by
    refine Ends.bind ((keeps_start fresh).ends fun _ => Workflow.Fresh.live) fun _ => ?_
    refine Ends.bind ((keeps_understand fresh).ends fun _ => Workflow.Fresh.live) fun understood => ?_
    obtain ⟨intent, requiredQuestions⟩ := understood
    dsimp only
    split
    · exact (keeps_close stable (by decide)).narrow fun _ fresh => fresh.live
    · refine Ends.bind planNext_live fun _ => ?_
      refine Ends.bind (keeps_executePlanningStages stable) fun result => ?_
      split
      · exact keeps_close stable (by decide)
      · exact Ends.bind (keeps_reviewed stable) fun _ => keeps_close stable (by simp)
  exact Ends.bind planned fun _ => Keeps.bind stable.checkpoint fun _ => keeps_pure

end live

def Interruption.quiet (interruption : Interruption) : Bool := interruption.disruption.isNone

theorem all_take_succ {α : Type} {start : α} {holds : α → Bool} (default : holds start = true)
    (items : List α) (n : Nat) : (items.take (n + 1)).all holds =
      (holds (items.headD start) && (items.tail.take n).all holds) := by
  cases items with
  | nil => simp [default]
  | cons => rfl

theorem any_take_succ {α : Type} {start : α} {holds : α → Bool} (default : holds start = false)
    (items : List α) (n : Nat) : (items.take (n + 1)).any holds =
      (holds (items.headD start) || (items.tail.take n).any holds) := by
  cases items with
  | nil => simp [default]
  | cons => rfl

namespace Workflow
variable {V : Type}

def next (w : Workflow V) : Interruption := w.interruptions.headD {}

/-- The run after its next interruption. -/
def resumed (w : Workflow V) : Workflow V :=
  { w with
    interruptions := w.interruptions.tail
    now := w.now + w.next.seconds
    shared := if w.next.lost then none else w.shared }

/-- The next operations of the run are not disrupted. -/
def quiet (w : Workflow V) (n : Nat) : Bool := (w.interruptions.take n).all Interruption.quiet

/-- The stored state is lost before the end of the next operations. -/
def loses (w : Workflow V) (n : Nat) : Bool := (w.interruptions.take n).any Interruption.lost

theorem quiet_succ (w : Workflow V) (n : Nat) :
    w.quiet (n + 1) = (w.next.quiet && w.resumed.quiet n) := all_take_succ rfl _ _

theorem quiet_add {w later : Workflow V} {m : Nat} (n : Nat)
    (after : later.interruptions = w.interruptions.drop m) :
    w.quiet (m + n) = (w.quiet m && later.quiet n) := by
  rw [quiet, List.take_add, List.all_append, quiet, quiet, after]

theorem loses_add {w later : Workflow V} {m : Nat} (n : Nat)
    (after : later.interruptions = w.interruptions.drop m) :
    w.loses (m + n) = (w.loses m || later.loses n) := by
  rw [loses, List.take_add, List.any_append, loses, loses, after]

theorem loses_succ (w : Workflow V) (n : Nat) :
    w.loses (n + 1) = (w.next.lost || w.resumed.loses n) := any_take_succ rfl _ _

end Workflow

section handler
variable {V α : Type} {service : PlanningService V} {values : Int → String → V} {w : Workflow V}

theorem interruption_eq : interruption w = .ok w.next w.resumed := by
  obtain ⟨orchestrator, now, interruptions⟩ := w
  cases interruptions <;> rfl

/-- An operation takes effect, or it is disrupted. -/
theorem await_ends {effect : Workflow V → α × Workflow V} :
    Ends (fun s => s = w) (await effect)
      (fun answer later => w.next.quiet = true ∧ answer = (effect w.resumed).1 ∧
        later = (effect w.resumed).2)
      (fun _ _ => w.next.quiet = false) := by
  rintro s rfl
  simp only [await, bind, EStateM.bind, interruption_eq, Interruption.quiet]
  cases s.next.disruption with
  | none => exact ⟨rfl, rfl, rfl⟩
  | some disruption => rfl

/-- The last part of the handler commits twice. -/
theorem conclude_ends : Ends (fun s => s = w)
    (do
      modify Workflow.failedTrace
      commit
      work : Run V Unit)
    (fun _ later => w.quiet 2 = true ∧ later.record = w.failedTrace.rows ∧
      (later.shared = none ↔ w.shared = none ∨ w.loses 2 = true))
    (fun _ _ => w.quiet 2 = false) := by
  have twice : w.quiet 2 = (w.failedTrace.next.quiet && w.failedTrace.resumed.next.quiet) := by
    rw [w.quiet_succ 1, w.resumed.quiet_succ 0]
    exact congrArg _ (Bool.and_true _)
  have lost : w.loses 2 = (w.next.lost || w.resumed.next.lost) := by
    rw [w.loses_succ 1, w.resumed.loses_succ 0]
    exact congrArg _ (Bool.or_false _)
  refine Ends.bind (m := fun _ later => later = w.failedTrace) (ends_modify ?_) fun _ => ?_
  · rintro s rfl
    rfl
  refine Ends.bind (await_ends.mono (fun _ same => same) (fun _ _ same => same) fun _ _ stops => ?_)
    fun _ => ?_
  · rw [twice, stops, Bool.false_and]
  · rintro s ⟨first, -, rfl⟩
    refine (await_ends.mono (fun _ same => same) (fun _ later same => ?_) fun _ _ stops => ?_) _ rfl
    · obtain ⟨second, -, rfl⟩ := same
      refine ⟨by rw [twice, first]; exact second, rfl, ?_⟩
      rw [lost]
      cases before : w.next.lost <;> cases after : w.resumed.next.lost <;>
        simp_all [Workflow.resumed, Workflow.next, Workflow.failedTrace]
    · rw [twice, first]
      exact stops

/-- A read answers the verified state, if there is one. -/
theorem read_ends : Ends (fun s => s = w) service.read
    (fun current later => later = w.resumed ∧ w.next.quiet = true ∧
      ∃ raw, w.resumed.shared = some raw ∧ service.manager.codec.verified raw = .ok current)
    (fun _ _ => w.next.quiet = true → ∀ raw current, w.resumed.shared = some raw →
      service.manager.codec.verified raw ≠ .ok current) := by
  refine Ends.bind (await_ends.mono (fun _ same => same) (fun _ _ same => same)
    fun _ _ stops quiet => ?_) fun found => ?_
  · exact absurd (stops.symm.trans quiet) Bool.false_ne_true
  · rintro s ⟨quiet, answer, rfl⟩
    cases found with
    | none =>
        intro _ raw current present
        exact absurd (answer.trans present) nofun
    | some raw =>
        have present : w.resumed.shared = some raw := answer.symm
        dsimp only
        cases verified : service.manager.codec.verified raw with
        | ok current => exact ⟨rfl, quiet, raw, present, verified⟩
        | error error =>
            intro _ other current found
            cases present.symm.trans found
            exact fun accepted => absurd (verified.symm.trans accepted) nofun

/-- A write is stored exactly when it finds its revision and fits. -/
theorem compareSetJson_ends {expectedRevision : Int} {state : SharedState V} :
    Ends (fun s => s = w) (service.compareSetJson expectedRevision state)
      (fun stored later => w.next.quiet = true ∧
        (stored = true ↔
          (w.resumed.shared.elim (-1) fun current => (current.revision : Int)) = expectedRevision ∧
            service.manager.codec.bytes state ≤ service.maxValueBytes) ∧
        (stored = true → later = { w.resumed with shared := some state }))
      (fun _ _ => w.next.quiet = false) := by
  refine await_ends.weaken fun stored later ⟨quiet, answer, same⟩ => ⟨quiet, ?_⟩
  subst answer same
  split
  · rename_i fits
    exact ⟨iff_of_true rfl fits, fun _ => rfl⟩
  · rename_i misfits
    exact ⟨iff_of_false Bool.false_ne_true misfits, fun stored => absurd stored Bool.false_ne_true⟩

/-- What the handler would store over the state that it has read. -/
def failureUpdate (service : PlanningService V) (values : Int → String → V) (w : Workflow V)
    (current : SharedState V) : Except SharedStateError (SharedState V) :=
  service.manager.prepareUpdate current .supervisor w.stateRevision "workflow_failed"
    [("execution_context", values w.stateRevision "execution_context")] none
    (w.now + w.next.seconds)

/-- The handler's update is stored: the state is found by its next two operations, and it may fail
from its phase at the revision of the run and within the limits. -/
structure Accepts (service : PlanningService V) (values : Int → String → V) (w : Workflow V) :
    Prop where
  quiet : w.quiet 2 = true
  kept : w.loses 2 = false
  updated : ∃ raw current updated, w.shared = some raw ∧
    service.manager.codec.verified raw = .ok current ∧
    failureUpdate service values w current = .ok updated ∧
    service.manager.codec.bytes updated ≤ service.maxValueBytes

/-- The run after the handler's update. -/
structure Updated (service : PlanningService V) (w later : Workflow V) : Prop where
  interruptions : later.interruptions = w.interruptions.drop 2
  rows : later.record = w.record
  tasks : later.tasks = w.tasks
  stored : ∃ updated, later.shared = some updated ∧ service.manager.codec.Sealed updated

theorem update_ends : Ends (fun s => s = w)
    (service.update .supervisor "workflow_failed"
      (fun revision => [("execution_context", values revision "execution_context")]) fun _ => none)
    (fun _ later => Accepts service values w ∧ Updated service w later)
    (fun _ _ => ¬ Accepts service values w) := by
  have quiet : w.quiet 2 = (w.next.quiet && w.resumed.next.quiet) := by
    rw [w.quiet_succ 1, w.resumed.quiet_succ 0]
    exact congrArg _ (Bool.and_true _)
  have loses : w.loses 2 = (w.next.lost || w.resumed.next.lost) := by
    rw [w.loses_succ 1, w.resumed.loses_succ 0]
    exact congrArg _ (Bool.or_false _)
  refine ends_get fun s same => ?_
  subst same
  have authorized : AgentSharedStateManager.authorize .supervisor "workflow_failed"
      [("execution_context", values s.stateRevision "execution_context")] = .ok () := rfl
  refine Ends.bind (m := fun _ later => later = s) ?_ fun _ => ?_
  · rw [authorized]
    exact ends_pure fun _ same => same
  refine Ends.bind (read_ends.mono (fun _ same => same) (fun _ _ same => same)
    fun _ _ stops accepts => ?_) fun current => ?_
  · obtain ⟨both, stay, raw, current, updated, present, verified, -⟩ := accepts
    rw [quiet, Bool.and_eq_true] at both
    rw [loses, Bool.or_eq_false_iff] at stay
    refine stops both.1 raw current ?_ verified
    rw [Workflow.resumed, stay.1]
    exact present
  rintro t ⟨rfl, calm, raw, present, verified⟩
  have stays : s.next.lost = false := by
    cases gone : s.next.lost with
    | false => rfl
    | true =>
        rw [Workflow.resumed, gone] at present
        exact absurd present nofun
  have found : s.shared = some raw := by
    rw [Workflow.resumed, stays] at present
    exact present
  refine ends_get (fun reached same => ?_) s.resumed rfl
  subst same
  have prepares : service.manager.prepareUpdate current .supervisor s.stateRevision "workflow_failed"
      [("execution_context", values s.stateRevision "execution_context")] none s.resumed.now =
        failureUpdate service values s current := rfl
  rw [prepares]
  cases prepared : failureUpdate service values s current with
  | error error =>
      refine Ends.bind (m := fun _ _ => False) (ends_throw fun _ _ accepts => ?_) fun _ _ none => none.elim
      obtain ⟨other, again, updated, same, reread, accepted, -⟩ := accepts.updated
      cases found.symm.trans same
      cases verified.symm.trans reread
      exact absurd (prepared.symm.trans accepted) nofun
  | ok updated =>
      have sealed := AgentSharedStateManager.prepareUpdate_sealed prepared
      have revision : (raw.revision : Int) = s.stateRevision := by
        rw [← sealed.1, MapGo.Shared.StateCodec.verified_revision verified]
      refine Ends.bind (m := fun answer later => answer = updated ∧ later = s.resumed)
        (ends_pure fun _ same => ⟨rfl, same⟩) fun answer => Ends.assume fun same => ?_
      subst same
      refine Ends.bind (compareSetJson_ends.mono (fun _ same => same) (fun _ _ same => same)
        fun _ _ stops accepts => ?_) fun stored => ?_
      · have both := accepts.quiet
        rw [quiet, stops, Bool.and_false] at both
        exact absurd both Bool.false_ne_true
      rintro t ⟨still, matched, written⟩
      -- What the write finds is the state that was read, unless it has been lost in between.
      have seen : s.resumed.resumed.shared = if s.resumed.next.lost then none else some raw := by
        rw [← present]
        rfl
      cases stored with
      | true =>
          obtain ⟨equal, fits⟩ := matched.mp rfl
          have kept : s.resumed.next.lost = false := by
            cases gone : s.resumed.next.lost with
            | false => rfl
            | true =>
                rw [seen, gone, if_pos rfl, Option.elim_none, ← revision] at equal
                omega
          have later := written rfl
          subst later
          refine ⟨⟨?_, ?_, raw, current, answer, found, verified, prepared, fits⟩, ?_, rfl, rfl,
            answer, rfl, sealed.2⟩
          · rw [quiet, calm, still, Bool.and_self]
          · rw [loses, stays, kept, Bool.or_self]
          · simp only [Workflow.resumed, ← List.drop_one, List.drop_drop]
      | false =>
          intro accepts
          have kept := accepts.kept
          rw [loses, stays, Bool.false_or] at kept
          obtain ⟨other, again, last, same, reread, accepted, fits⟩ := accepts.updated
          cases found.symm.trans same
          cases verified.symm.trans reread
          cases prepared.symm.trans accepted
          refine absurd (matched.mpr ⟨?_, fits⟩) Bool.false_ne_true
          rw [seen, kept]
          exact revision

/-- The handler comes to its end: its update is stored and audited, where there is a state to
update, and both commits are made. -/
def Passes (service : PlanningService V) (values : Int → String → V) (w : Workflow V) : Prop :=
  if 0 ≤ w.stateRevision then
    Accepts service values w ∧ w.loses 3 = false ∧ w.quiet 5 = true
  else w.quiet 2 = true

/-- Nothing is stored at the end of the handler. -/
def Workflow.Gone (w : Workflow V) : Prop :=
  if 0 ≤ w.stateRevision then w.loses 5 = true else w.shared = none ∨ w.loses 2 = true

theorem fail_ends (durable : service.durable = true)
    (known : ∀ key, (w.record.tasks key).isSome → key ∈ w.tasks.map TaskNode.key) :
    Ends (fun s => s = w) (service.fail values)
      (fun _ later => Passes service values w ∧ (later.record.status = .failed ∧
        ∀ key, later.record.tasks key ≠ some .running) ∧ (later.shared = none ↔ w.Gone))
      (fun _ _ => ¬ Passes service values w) := by
  rw [PlanningService.fail, if_pos durable]
  refine ends_get fun s same => ?_
  subst same
  unfold Passes Workflow.Gone
  dsimp only
  split
  · refine Ends.bind (update_ends.mono (fun _ same => same) (fun _ _ same => same)
      fun _ _ refused passes => refused passes.1) fun _ => ?_
    rintro t ⟨accepts, updated⟩
    obtain ⟨state, stored, sealed⟩ := updated.stored
    have quiet : s.quiet 5 = (t.next.quiet && t.resumed.quiet 2) := by
      rw [Workflow.quiet_add 3 updated.interruptions, accepts.quiet, Bool.true_and]
      exact t.quiet_succ 2
    have loses : s.loses 5 = (t.next.lost || t.resumed.loses 2) := by
      rw [Workflow.loses_add 3 updated.interruptions, accepts.kept, Bool.false_or]
      exact t.loses_succ 2
    have early : s.loses 3 = t.next.lost := by
      rw [Workflow.loses_add 1 updated.interruptions, accepts.kept, Bool.false_or]
      exact (t.loses_succ 0).trans (Bool.or_false _)
    have read : t.resumed.shared = if t.next.lost then none else some state := by
      rw [← stored]
      rfl
    refine Ends.bind (read_ends.mono (fun _ same => same) (fun _ _ same => same)
      fun _ _ stops passes => ?_) (fun current => ?_) t rfl
    · obtain ⟨-, kept, calm⟩ := passes
      rw [quiet, Bool.and_eq_true] at calm
      rw [early] at kept
      rw [kept] at read
      exact stops calm.1 state state read sealed.verified
    · rintro u ⟨rfl, calm, raw, present, -⟩
      have kept : t.next.lost = false := by
        cases gone : t.next.lost with
        | false => rfl
        | true =>
            rw [read, gone] at present
            exact absurd present nofun
      refine (conclude_ends.mono (fun _ same => same) (fun _ later ⟨rest, rows, gone⟩ => ?_)
        fun _ _ stops passes => ?_) _ rfl
      · have all := passes.2.2
        rw [quiet, stops, Bool.and_false] at all
        exact Bool.false_ne_true all
      · rw [quiet, early, loses, calm, rest, kept, Bool.false_or, rows]
        refine ⟨⟨accepts, rfl, rfl⟩, Workflow.failedTrace_rows fun key inside => ?_, ?_⟩
        · have before := known key (updated.rows ▸ inside)
          rw [← updated.tasks] at before
          exact before
        · rw [gone, present]
          exact or_iff_right nofun
  · refine conclude_ends.mono (fun _ same => same) (fun _ later ⟨quiet, rows, gone⟩ => ?_)
      fun _ _ stops quiet => absurd (stops.symm.trans quiet) Bool.false_ne_true
    exact ⟨quiet, rows ▸ Workflow.failedTrace_rows known, gone⟩

end handler

/-- A run before its first operation. -/
def PlanningService.unstarted {V : Type} (service : PlanningService V) (now : Nat)
    (interruptions : List Interruption) : Workflow V :=
  { orchestrator := .fresh service.settings, now := now, interruptions := interruptions }

/-- A run has failed for good: its row says so and none of its tasks is running, the caller gets the
exception that ended it, and its shared state is gone. -/
structure Finalized {V : Type} (ending : Ending) (w : Workflow V) : Prop where
  status : w.record.status = .failed
  settled : ∀ key, w.record.tasks key ≠ some .running
  original : ∀ failure other, ending ≠ .replaced failure other
  erased : w.shared = none

/-- The run is ended by an `Exception`, its handler comes to its end, and nothing is stored then. -/
def PlanningService.Finalizes {V : Type} (service : PlanningService V) (script : WorkflowScript V)
    (request : AIPlanRequest) (start : Workflow V) : Prop :=
  service.durable = true ∧ ∃ failure w, service.attempt script request start = .error failure w ∧
    failure ≠ .cancelled ∧ Passes service script.values w ∧ w.Gone

theorem not_finalized_of_stored {V : Type} {ending : Ending} {w : Workflow V}
    (stored : w.shared.isSome = true) : ¬ Finalized ending w := by
  intro finalized
  rw [finalized.erased] at stored
  contradiction

theorem not_finalized_of_replaced {V : Type} {ending : Ending} {w : Workflow V}
    {failure other : Failure} (replaced : ending = .replaced failure other) :
    ¬ Finalized ending w :=
  fun finalized => finalized.original failure other replaced

section finalized
variable {V : Type} {service : PlanningService V} {script : WorkflowScript V}
  {request : AIPlanRequest} {start : Workflow V}

theorem unstarted_fresh {now : Nat} {interruptions : List Interruption} :
    (service.unstarted now interruptions).Fresh :=
  ⟨⟨nofun, nofun, nofun⟩, rfl⟩

/-- A result that is kept back by its own clean-up leaves no failed row. -/
theorem returned_unfinalized {result : AIPlanResult} {w : Workflow V} (fresh : start.Fresh)
    (ran : service.attempt script request start = .ok result w) :
    (service.plan script request start).2.record.status ≠ .failed := by
  have live : w.Live := attempt_live.result fresh ran
  have clears : Keeps Workflow.Live (clearShortTermMemory (V := V)) :=
    keeps_await Workflow.live_stable.ambient fun w live =>
      Workflow.live_stable.frame (w := w) rfl rfl rfl live
  have cleared := clears w live
  rw [PlanningService.plan, ran]
  dsimp only
  split at cleared <;> rename_i ended <;> rw [ended] <;> exact cleared.record

/-- A run that is ended by an exception in its `try` block. -/
theorem finalized_iff {failure : Failure} {w : Workflow V} (fresh : start.Fresh)
    (ran : service.attempt script request start = .error failure w) :
    Finalized (service.plan script request start).1 (service.plan script request start).2 ↔
      service.durable = true ∧ failure ≠ .cancelled ∧ Passes service script.values w ∧ w.Gone := by
  have live : w.Live := attempt_live.failure fresh ran
  rw [PlanningService.plan, ran]
  dsimp only
  by_cases cancelled : failure = .cancelled
  · rw [if_pos cancelled]
    exact iff_of_false (fun finalized => live.record finalized.status) fun holds => holds.2.1 cancelled
  rw [if_neg cancelled]
  cases durable : service.durable with
  | false =>
      have nothing : service.fail script.values w = .ok () w := by
        rw [PlanningService.fail, durable]
        rfl
      rw [nothing]
      dsimp only
      exact iff_of_false (fun finalized => live.record finalized.status) fun holds => Bool.false_ne_true holds.1
  | true =>
      have handles : Ends _ (service.fail script.values) _ _ := fail_ends durable live.known
      have ends := handles w rfl
      cases handled : service.fail script.values w with
      | error other later =>
          rw [handled] at ends
          exact iff_of_false (fun finalized => finalized.original _ _ rfl) fun holds => ends holds.2.2.1
      | ok _ later =>
          rw [handled] at ends
          obtain ⟨passes, rows, gone⟩ := ends
          constructor
          · intro finalized
            exact ⟨rfl, cancelled, passes, gone.mp finalized.erased⟩
          · rintro ⟨-, -, -, erased⟩
            exact ⟨rows.1, rows.2, fun _ _ same => Ending.noConfusion same, gone.mpr erased⟩

end finalized

/-- A planning run that fails is finalized exactly when an `Exception` has ended it, its handler comes
to its end and nothing is stored then. -/
theorem failed_runs_finalized {V : Type} (service : PlanningService V) (script : WorkflowScript V)
    (request : AIPlanRequest) (now : Nat) (interruptions : List Interruption) :
    Finalized (service.plan script request (service.unstarted now interruptions)).1
        (service.plan script request (service.unstarted now interruptions)).2 ↔
      service.Finalizes script request (service.unstarted now interruptions) := by
  have fresh : (service.unstarted now interruptions).Fresh := unstarted_fresh
  cases tried : service.attempt script request (service.unstarted now interruptions) with
  | ok result later =>
      refine iff_of_false (fun finalized => returned_unfinalized fresh tried finalized.status) ?_
      rintro ⟨-, failure, other, raised, -⟩
      rw [tried] at raised
      contradiction
  | error failure later =>
      rw [finalized_iff fresh tried]
      constructor
      · rintro ⟨durable, ended, passes, gone⟩
        exact ⟨durable, failure, later, tried, ended, passes, gone⟩
      · rintro ⟨durable, other, last, raised, ended, passes, gone⟩
        cases tried.symm.trans raised
        exact ⟨durable, ended, passes, gone⟩

section unfinished

def cafeSolve : SolveScript where
  search := { found := [true] }
  searched := done
  safety := done
  planner := some { output := ⟨cafePlan, .planReady, [], [], none⟩ }

/-- A run that finds a plan for one task. -/
def cafeScript : WorkflowScript (Option Nat) where
  understand := some { output := ({}, []) }
  firstSolve := cafeSolve
  firstReview := some { output := ruleBasedReview cafePlan }
  secondSolve := cafeSolve
  secondReview := some { output := ruleBasedReview cafePlan }
  values := fun _ _ => none
  messageIds := fun _ => none

def cafeService : PlanningService (Option Nat) where
  manager := MapGo.Shared.versionManager
  settings := { enforced with mode := .shadow }
  taskId := "plan-0001"

/-- The run is interrupted by an exception after `n` operations. -/
def interruptedRun (n : Nat) : Ending × Workflow (Option Nat) :=
  cafeService.plan cafeScript {} (cafeService.unstarted 0
    (List.replicate n ({} : Interruption) ++ [{ disruption := some .raises }]))

/-- An exception in the intent stage leaves the shared state behind; one in the last commit of a
finished run is replaced, and the run stays recorded as running. -/
theorem failed_runs_left :
    (interruptedRun 7).1 = .raised (.stopped .raised) ∧ (interruptedRun 7).2.shared.isSome = true ∧
      ¬ Finalized (interruptedRun 7).1 (interruptedRun 7).2 ∧
    (interruptedRun 61).1 = .replaced (.stopped .raised)
        (.shared (.access "invalid shared-state transition finalized->failed")) ∧
      (interruptedRun 61).2.record.status = .running ∧
      ¬ Finalized (interruptedRun 61).1 (interruptedRun 61).2 := by
  have first : (interruptedRun 7).1 = .raised (.stopped .raised) ∧
      (interruptedRun 7).2.shared.isSome = true := by decide +kernel
  have last : (interruptedRun 61).1 = .replaced (.stopped .raised)
        (.shared (.access "invalid shared-state transition finalized->failed")) ∧
      (interruptedRun 61).2.record.status = .running := by decide +kernel
  exact ⟨first.1, first.2, not_finalized_of_stored first.2, last.1, last.2,
    not_finalized_of_replaced last.1⟩

end unfinished
end MapGo.Planning
