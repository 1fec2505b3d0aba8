import MapGo.Planning.Finalization

/-! The audit trail of a planning run against its own bounds. Each failed search adds steps, messages
and tool calls; the bounds do not depend on how many tasks or attempts there are. -/
namespace MapGo.Planning

open Exits Run
open MapGo.Shared (AgentType SharedState SharedStateError AgentSharedStateManager)

namespace SearchScript
variable (search : SearchScript)

/-- How often the supervisor is asked about a failed task from an attempt on, with so many attempts
after it: until a repeated search answers. -/
def asked (index attempt remaining : Nat) : Nat :=
  ((List.range' attempt remaining).takeWhile fun attempt => !search.repeated index attempt).length + 1

/-- The recoveries of a search: one for each attempt on a failed task. -/
def recoveries (maxAttempts : Nat) : Nat :=
  (search.failures.map fun index => search.asked index 1 (maxAttempts - 1)).sum

/-- The tool calls of a search: one for each task, and the repeated searches of the failed ones. -/
def toolCalls (maxAttempts : Nat) : Nat :=
  search.found.length + (search.failures.map fun index =>
    min (search.asked index 1 (maxAttempts - 1)) (maxAttempts - 1)).sum

end SearchScript

namespace WorkflowScript
variable {V : Type} (script : WorkflowScript V)

def solve : Nat → SolveScript
  | 0 => script.firstSolve
  | _ => script.secondSolve

/-- The run checks the safety of its plans. -/
def checksSafety : Bool :=
  match script.understand with
  | some execution => execution.output.1.safetySensitive
  | none => false

/-- The steps of a run with so many solves and reviews: three for the intake, the final answer, and for
each solve its recoveries, the search, the planner and a safety check. -/
def stepCount (maxAttempts solves reviews : Nat) : Nat :=
  4 + ((List.range solves).map fun k => (script.solve k).search.recoveries maxAttempts + 2 +
    script.checksSafety.toNat).sum + reviews

end WorkflowScript

/-- The searches of a run keep to the bound on tool calls exactly where its steps do. -/
def Agreed {V : Type} (service : PlanningService V) (script : WorkflowScript V) (w : Workflow V) :
    Prop :=
  (∀ calls ∈ w.recorded, calls ≤ maxToolCalls) ↔
    ∀ k < w.searches, (script.solve k).search.toolCalls service.maxAttempts ≤ maxToolCalls

structure Tried {V : Type} (service : PlanningService V) (script : WorkflowScript V) (k : Nat)
    (w : Workflow V) : Prop where
  agreed : Agreed service script w
  searches : w.searches = k

/-- A run with so many steps, messages above them, searches, solves and reviews. -/
structure Counted {V : Type} (service : PlanningService V) (script : WorkflowScript V)
    (n slack k solves reviews : Nat) (w : Workflow V) : Prop where
  tried : Tried service script k w
  steps : w.steps.length = n
  messages : w.messages ≤ n + slack
  solves : w.orchestrator.solves = solves
  reviews : w.orchestrator.reviews.length = reviews

section counted
variable {V α : Type} {service : PlanningService V} {script : WorkflowScript V}
  {n slack k solves reviews : Nat}

theorem Counted.frame {w later : Workflow V} (counted : Counted service script n slack k solves reviews w)
    (steps : later.steps = w.steps) (messages : later.messages = w.messages)
    (recorded : later.recorded = w.recorded) (searches : later.searches = w.searches)
    (solved : later.orchestrator.solves = w.orchestrator.solves)
    (reviewed : later.orchestrator.reviews = w.orchestrator.reviews) :
    Counted service script n slack k solves reviews later where
  tried := by
    refine ⟨?_, searches.trans counted.tried.searches⟩
    rw [Agreed, recorded, searches]
    exact counted.tried.agreed
  steps := steps ▸ counted.steps
  messages := messages ▸ counted.messages
  solves := solved ▸ counted.solves
  reviews := reviewed ▸ counted.reviews

theorem counted_ambient :
    Workflow.Ambient (Counted service script n slack k solves reviews) :=
  fun _ _ _ _ _ counted => counted.frame rfl rfl rfl rfl rfl rfl

/-- What does not count keeps the counts. -/
theorem Counted.aside {prog : Run V α}
    (keeps : Keeps (Counted service script n slack k solves reviews) prog) :
    Ends (Counted service script n slack k solves reviews) prog
      (fun _ => Counted service script n slack k solves reviews) (fun _ => Tried service script k) :=
  keeps.ends fun _ => Counted.tried

theorem counted_work : Ends (Counted service script n slack k solves reviews) work
    (fun _ => Counted service script n slack k solves reviews) (fun _ => Tried service script k) :=
  Counted.aside (keeps_work counted_ambient)

theorem counted_agent {outcome : Outcome α} :
    Ends (Counted service script n slack k solves reviews) (agent outcome)
      (fun execution w => outcome = some execution ∧
        Counted service script n slack k solves reviews w) (fun _ => Tried service script k) := by
  refine Ends.bind counted_work fun _ => ?_
  cases outcome with
  | some => exact ends_pure fun _ counted => ⟨rfl, counted⟩
  | none => exact ends_throw fun _ => Counted.tried

theorem counted_read : Ends (Counted service script n slack k solves reviews) service.read
    (fun _ => Counted service script n slack k solves reviews) (fun _ => Tried service script k) :=
  Counted.aside (keeps_read counted_ambient)

theorem counted_write {actor : AgentType} {action : String} {fields : List String} :
    Ends (Counted service script n slack k solves reviews)
      (service.write script actor action fields)
      (fun _ => Counted service script n slack k solves reviews) (fun _ => Tried service script k) :=
  Counted.aside (keeps_write counted_ambient)

theorem counted_checkpoint : Ends (Counted service script n slack k solves reviews) service.checkpoint
    (fun _ => Counted service script n slack k solves reviews) (fun _ => Tried service script k) :=
  Counted.aside (keeps_checkpoint counted_ambient fun _ counted =>
    counted.frame rfl rfl rfl rfl rfl rfl)

theorem counted_modify {change : Workflow V → Workflow V}
    (same : ∀ w, (change w).steps = w.steps ∧ (change w).messages = w.messages ∧
      (change w).recorded = w.recorded ∧ (change w).searches = w.searches ∧
      (change w).orchestrator.solves = w.orchestrator.solves ∧
      (change w).orchestrator.reviews = w.orchestrator.reviews) :
    Ends (Counted service script n slack k solves reviews) (modify change : Run V PUnit)
      (fun _ => Counted service script n slack k solves reviews) (fun _ => Tried service script k) := by
  refine ends_modify fun w counted => ?_
  obtain ⟨steps, messages, recorded, searches, solved, reviewed⟩ := same w
  exact counted.frame steps messages recorded searches solved reviewed

theorem counted_consume {receiver : AgentEndpoint} {expected : List ArtifactType} :
    Ends (Counted service script n slack k solves reviews) (consume receiver expected)
      (fun _ => Counted service script n slack k solves reviews) (fun _ => Tried service script k) := by
  refine ends_get fun w counted => ?_
  unfold Orchestrator.consume
  split
  · rename_i o consumed
    refine ends_set fun _ _ => counted.frame rfl rfl rfl rfl ?_ ?_ <;>
      (split at consumed; contradiction; split at consumed; cases consumed; rfl; contradiction)
  · exact ends_throw fun _ same => same ▸ counted.tried

/-- A message joins the trace. -/
theorem counted_dispatch {sender receiver : AgentEndpoint} {artifactType : ArtifactType} :
    Ends (Counted service script n slack k solves reviews) (dispatch sender receiver artifactType)
      (fun _ => Counted service script n (slack + 1) k solves reviews)
      (fun _ => Tried service script k) := by
  refine Ends.bind counted_work fun _ => ends_modify fun w counted => ?_
  exact ⟨⟨counted.tried.agreed, counted.tried.searches⟩, counted.steps,
    Nat.succ_le_succ counted.messages, counted.solves, counted.reviews⟩

/-- A step with few tool calls joins the trace. -/
theorem counted_record {execution : AgentExecution α} {calls : Nat} (few : calls ≤ maxToolCalls) :
    Ends (Counted service script n (slack + 1) k solves reviews) (Run.record execution calls)
      (fun _ => Counted service script (n + 1) slack k solves reviews)
      (fun _ => Tried service script k) := by
  have appended (recorded : List Nat) : (∀ c ∈ recorded ++ [calls], c ≤ maxToolCalls) ↔
      ∀ c ∈ recorded, c ≤ maxToolCalls := by
    simp [or_imp, forall_and, few]
  rw [Run.record, if_neg (Nat.not_lt.mpr few)]
  refine Ends.bind (m := fun _ => Counted service script n (slack + 1) k solves reviews)
    (ends_modify fun w counted => ?_) fun _ => ends_modify fun w counted => ?_
  · refine ⟨⟨?_, counted.tried.searches⟩, counted.steps, counted.messages, counted.solves,
      counted.reviews⟩
    rw [Agreed, appended]
    exact counted.tried.agreed
  · refine ⟨⟨counted.tried.agreed, counted.tried.searches⟩, ?_, ?_, counted.solves, counted.reviews⟩
    · rw [List.length_append, counted.steps]
      rfl
    · have messages := counted.messages
      change w.messages ≤ n + 1 + slack
      omega

/-- A step with the tool calls of the next search. -/
theorem counted_search {execution : AgentExecution α} {calls : Nat}
    (called : calls = (script.solve k).search.toolCalls service.maxAttempts) :
    Ends (Counted service script n (slack + 1) k solves reviews)
      (do
        modify fun w => { w with searches := w.searches + 1 }
        Run.record execution calls)
      (fun _ => Counted service script (n + 1) slack (k + 1) solves reviews)
      (fun _ => Agreed service script) := by
  have appended (recorded : List Nat) : (∀ c ∈ recorded ++ [calls], c ≤ maxToolCalls) ↔
      (∀ c ∈ recorded, c ≤ maxToolCalls) ∧ calls ≤ maxToolCalls := by
    simp [or_imp, forall_and]
  have next (w : Workflow V) (counted : Counted service script n (slack + 1) k solves reviews w) :
      Tried service script (k + 1) { w with
        searches := w.searches + 1, recorded := w.recorded ++ [calls] } := by
    refine ⟨?_, congrArg (· + 1) counted.tried.searches⟩
    have before : (∀ c ∈ w.recorded, c ≤ maxToolCalls) ↔
        ∀ i < w.searches, (script.solve i).search.toolCalls service.maxAttempts ≤ maxToolCalls :=
      counted.tried.agreed
    rw [Agreed, appended, before, called]
    dsimp only
    rw [counted.tried.searches]
    exact Nat.forall_lt_succ_right.symm
  intro w counted
  have tried := next w counted
  by_cases few : maxToolCalls < calls
  · simp only [Run.record, if_pos few]
    exact tried.agreed
  · simp only [Run.record, if_neg few]
    refine ⟨⟨tried.agreed, tried.searches⟩, ?_, ?_, counted.solves, counted.reviews⟩
    · change (w.steps ++ [calls]).length = n + 1
      rw [List.length_append, counted.steps]
      rfl
    · have messages := counted.messages
      change w.messages ≤ n + 1 + slack
      omega

theorem counted_recover {attempt : Nat} {fallbackAvailable : Bool} :
    Ends (Counted service script n slack k solves reviews)
      (service.recover script attempt fallbackAvailable)
      (fun action w => action = recoveryAction attempt service.maxAttempts fallbackAvailable ∧
        Counted service script (n + 1) slack k solves reviews w)
      (fun _ => Tried service script k) := by
  refine Ends.bind counted_dispatch fun _ => Ends.bind counted_consume fun _ => ?_
  refine Ends.bind counted_work fun _ => Ends.bind counted_write fun _ => ?_
  refine Ends.bind (counted_record (by decide)) fun _ => Ends.bind counted_checkpoint fun _ => ?_
  exact ends_pure fun _ counted => ⟨rfl, counted⟩

/-- Each attempt adds a step, and each repeated search a tool call. -/
theorem counted_searchAttempts {search : SearchScript} {index : Nat} (remaining attempt : Nat)
    (last : attempt + remaining = service.maxAttempts) :
    Ends (Counted service script n slack k solves reviews)
      (service.searchAttempts script search index (remaining + 1) attempt)
      (fun calls w => calls = min (search.asked index attempt remaining) remaining ∧
        Counted service script (n + search.asked index attempt remaining) slack k solves reviews w)
      (fun _ => Tried service script k) := by
  induction remaining generalizing attempt n with
  | zero =>
      refine Ends.bind counted_recover fun action => Ends.assume fun taken => ?_
      have given : action ≠ .retry := by
        rw [taken, recoveryAction, if_neg (by omega)]
        split <;> nofun
      rw [if_neg given]
      exact ends_pure fun _ counted => ⟨rfl, counted⟩
  | succ remaining ih =>
      refine Ends.bind counted_recover fun action => Ends.assume fun taken => ?_
      have retries : action = .retry := by
        rw [taken, recoveryAction, if_pos (by omega)]
      rw [if_pos retries]
      refine Ends.bind counted_work fun _ => ?_
      cases answered : search.repeated index attempt with
      | true =>
          have once : search.asked index attempt (remaining + 1) = 1 := by
            simp [SearchScript.asked, List.range'_succ, answered]
          rw [once, if_pos rfl]
          exact ends_pure fun _ counted => ⟨by omega, counted⟩
      | false =>
          have again : search.asked index attempt (remaining + 1) =
              search.asked index (attempt + 1) remaining + 1 := by
            simp [SearchScript.asked, List.range'_succ, answered]
          rw [again, if_neg Bool.false_ne_true]
          refine Ends.bind (ih (attempt + 1) (by omega)) fun calls => Ends.assume fun counted => ?_
          refine ends_pure fun w steps => ⟨by omega, ?_⟩
          rwa [Nat.add_right_comm, Nat.add_assoc] at steps

theorem maxAttempts_pos : 0 < service.maxAttempts := by
  have least : (1 : Int) ≤ max 1 (min 10 service.agentSearchMaxAttempts) := le_max_left ..
  unfold PlanningService.maxAttempts
  omega

theorem counted_searchFailures {search : SearchScript} (failures : List Nat) :
    Ends (Counted service script n slack k solves reviews)
      (service.searchFailures script search failures)
      (fun calls w => calls = (failures.map fun index =>
          min (search.asked index 1 (service.maxAttempts - 1)) (service.maxAttempts - 1)).sum ∧
        Counted service script
          (n + (failures.map fun index => search.asked index 1 (service.maxAttempts - 1)).sum)
          slack k solves reviews w)
      (fun _ => Tried service script k) := by
  have positive : 0 < service.maxAttempts := maxAttempts_pos
  induction failures generalizing n with
  | nil => exact ends_pure fun _ counted => ⟨rfl, counted⟩
  | cons index rest ih =>
      unfold PlanningService.searchFailures
      rw [← Nat.sub_add_cancel positive]
      refine Ends.bind (counted_searchAttempts (service.maxAttempts - 1) 1 (by omega)) fun calls =>
        Ends.assume fun called => ?_
      rw [Nat.sub_add_cancel positive]
      refine Ends.bind ih fun more => Ends.assume fun others => ?_
      refine ends_pure fun w counted => ⟨?_, ?_⟩
      · rw [List.map_cons, List.sum_cons, called, others]
      · rwa [List.map_cons, List.sum_cons, ← Nat.add_assoc]

theorem counted_runSearch {graph : List AgentPlanStep} :
    Ends (Counted service script n slack k solves reviews)
      (service.runSearch script graph (script.solve k))
      (fun _ => Counted service script
        (n + ((script.solve k).search.recoveries service.maxAttempts + 1)) slack (k + 1) solves reviews)
      (fun _ => Agreed service script) := by
  have agreed : ∀ (_ : Failure) (w : Workflow V), Tried service script k w → Agreed service script w :=
    fun _ _ tried => tried.agreed
  have early {α : Type} {prog : Run V α} {m d : Nat} {post : α → Workflow V → Prop}
      (ends : Ends (Counted service script m d k solves reviews) prog post
        (fun _ => Tried service script k)) :
      Ends (Counted service script m d k solves reviews) prog post (fun _ => Agreed service script) :=
    ends.mono (fun _ same => same) (fun _ _ same => same) agreed
  refine Ends.bind (early counted_consume) fun _ => Ends.bind (early counted_read) fun _ => ?_
  refine Ends.bind (early counted_work) fun _ => ?_
  refine Ends.bind (m := fun calls w =>
    calls = (script.solve k).search.toolCalls service.maxAttempts ∧
      Counted service script (n + (script.solve k).search.recoveries service.maxAttempts) slack k
        solves reviews w) (early ?_) fun calls => Ends.assume fun called => ?_
  · refine Ends.bind counted_work fun _ => ?_
    refine Ends.bind (counted_searchFailures _) fun calls => Ends.assume fun called => ?_
    refine Ends.bind counted_work fun _ => ends_pure fun w counted => ⟨?_, counted⟩
    rw [SearchScript.toolCalls, called]
  · refine Ends.bind (early counted_agent) fun execution => Ends.assume fun _ => ?_
    refine Ends.bind (early counted_write) fun _ => Ends.bind (early counted_dispatch) fun _ => ?_
    exact counted_search called

theorem counted_checkSafety {solve : SolveScript} :
    Ends (Counted service script n slack k solves reviews) (service.checkSafety script solve)
      (fun _ => Counted service script (n + 1) slack k solves reviews)
      (fun _ => Tried service script k) := by
  refine Ends.bind counted_consume fun _ => Ends.bind counted_read fun _ => ?_
  refine Ends.bind counted_agent fun execution => Ends.assume fun _ => ?_
  refine Ends.bind counted_write fun _ => Ends.bind counted_dispatch fun _ => ?_
  exact counted_record (by decide)

/-- A worker costs two messages. -/
theorem counted_placed {outcome : Outcome α} :
    Ends (Counted service script n slack k solves reviews) (service.placed outcome)
      (fun execution w => outcome = some execution ∧
        Counted service script n (slack + 2) k solves reviews w) (fun _ => Tried service script k) := by
  have exchanged (d : Nat) : Ends (Counted service script n d k solves reviews) exchange
      (fun _ => Counted service script n (d + 1) k solves reviews) (fun _ => Tried service script k) := by
    refine Ends.bind counted_work fun _ => ends_modify fun w counted => ?_
    exact ⟨⟨counted.tried.agreed, counted.tried.searches⟩, counted.steps,
      Nat.succ_le_succ counted.messages, counted.solves, counted.reviews⟩
  unfold PlanningService.placed
  split
  · refine Ends.bind (exchanged slack) fun _ => ?_
    refine Ends.bind counted_agent fun execution => Ends.assume fun given => ?_
    exact Ends.bind (exchanged (slack + 1)) fun _ => ends_pure fun _ counted => ⟨given, counted⟩
  · refine counted_agent.weaken fun execution w ⟨given, counted⟩ => ⟨given, ?_⟩
    exact { counted with messages := counted.messages.trans (Nat.le_add_right _ 2) }

theorem counted_runPlanner {solve : SolveScript} :
    Ends (Counted service script n slack k solves reviews) (service.runPlanner script solve)
      (fun _ => Counted service script (n + 1) (slack + 2) k (solves + 1) reviews)
      (fun _ => Tried service script k) := by
  refine Ends.bind counted_consume fun _ => Ends.bind counted_read fun _ => ?_
  refine Ends.bind counted_placed fun execution => Ends.assume fun _ => ?_
  refine Ends.bind counted_write fun _ => ?_
  refine ends_get fun w counted => ?_
  have few : solve.plannerTools.toolCalls ≤ maxToolCalls := by
    cases solve.plannerTools <;> decide
  refine Ends.bind (counted_dispatch.narrow fun _ same => same ▸ counted) fun _ => ?_
  refine Ends.bind (counted_record few) fun _ => ?_
  refine Ends.bind (m := fun _ => Counted service script (n + 1) (slack + 2) k (solves + 1) reviews)
    (ends_modify fun w counted => ?_) fun _ => ends_pure fun _ same => same
  exact ⟨⟨counted.tried.agreed, counted.tried.searches⟩, counted.steps, counted.messages,
    congrArg (· + 1) counted.solves, counted.reviews⟩

end counted

/-- The steps that a node of the task graph adds to the trace. -/
def SolveScript.weight (solve : SolveScript) (maxAttempts : Nat) : StepId → Nat
  | .search => solve.search.recoveries maxAttempts + 1
  | .weather => 0
  | .safetyCheck => 1
  | .planner => 1

/-- A run in its solve `k` after some nodes of the task graph. -/
def Solved {V : Type} (service : PlanningService V) (script : WorkflowScript V)
    (n slack k solves reviews : Nat) (done : List StepId) : Workflow V → Prop :=
  Counted service script (n + (done.map ((script.solve k).weight service.maxAttempts)).sum)
    (slack + 2 * done.count .planner) (k + done.count .search) (solves + done.count .planner) reviews

/-- A run after some nodes were executed of which one has failed. -/
structure Stalled {V : Type} (service : PlanningService V) (script : WorkflowScript V) (k : Nat)
    (done : List StepId) (w : Workflow V) : Prop where
  agreed : Agreed service script w
  unsearched : .search ∉ done → w.searches = k

section solving
variable {V : Type} {service : PlanningService V} {script : WorkflowScript V}
  {n slack k solves reviews : Nat} {graph : List AgentPlanStep} {done steps : List StepId}

/-- A node other than the search, in any state. -/
theorem counted_executePlanStep {solve : SolveScript} {step : StepId} (other : step ≠ .search) :
    Ends (Counted service script n slack k solves reviews)
      (service.executePlanStep script graph solve step)
      (fun _ => Counted service script (n + solve.weight service.maxAttempts step)
        (slack + 2 * [step].count .planner) k (solves + [step].count .planner) reviews)
      (fun _ => Tried service script k) := by
  cases step with
  | search => exact absurd rfl other
  | weather =>
      refine Ends.bind (Ends.bind counted_work fun _ => ?_) fun _ => ends_pure fun _ counted => counted
      cases solve.weather with
      | some => exact ends_pure fun _ counted => counted
      | none => exact ends_throw fun _ => Counted.tried
  | safetyCheck =>
      exact Ends.bind counted_checkSafety fun _ => ends_pure fun _ counted => counted
  | planner =>
      exact Ends.bind counted_runPlanner fun result => ends_pure fun _ counted => counted

theorem counted_executeSearch : Ends (Counted service script n slack k solves reviews)
    (service.executePlanStep script graph (script.solve k) .search)
    (fun _ => Counted service script
      (n + ((script.solve k).search.recoveries service.maxAttempts + 1)) slack (k + 1) solves reviews)
    (fun _ => Agreed service script) :=
  Ends.bind counted_runSearch fun _ => ends_pure fun _ counted => counted

theorem solved_step {step : StepId} (once : step = .search → .search ∉ done) :
    Ends (Solved service script n slack k solves reviews done)
      (service.executePlanStep script graph (script.solve k) step)
      (fun _ => Solved service script n slack k solves reviews (done ++ [step]))
      (fun _ => Stalled service script k (done ++ [step])) := by
  unfold Solved
  rw [List.map_append, List.sum_append, List.count_append, List.count_append, ← Nat.add_assoc,
    ← Nat.add_assoc, ← Nat.add_assoc, Nat.mul_add, ← Nat.add_assoc]
  by_cases searching : step = .search
  · subst searching
    rw [List.count_eq_zero_of_not_mem (once rfl)]
    refine counted_executeSearch.mono (fun _ same => same) (fun _ w counted => ?_) fun _ w agreed =>
      ⟨agreed, fun absent => absurd (List.mem_append_right _ (List.mem_singleton_self _)) absent⟩
    simpa [SolveScript.weight] using counted
  · have apart : [step].count .search = 0 :=
      List.count_eq_zero_of_not_mem fun member => searching (List.mem_singleton.mp member).symm
    rw [apart]
    refine (counted_executePlanStep searching).mono (fun _ same => same)
      (fun _ w counted => ?_) fun _ w tried => ⟨tried.agreed, fun absent => ?_⟩
    · simpa using counted
    · have none : done.count .search = 0 :=
        List.count_eq_zero_of_not_mem fun member => absent (List.mem_append_left _ member)
      rw [tried.searches, none, Nat.add_zero]

theorem stalled_step {step : StepId} (once : step = .search → .search ∉ done) :
    Ends (Stalled service script k done)
      (service.executePlanStep script graph (script.solve k) step)
      (fun _ => Stalled service script k (done ++ [step]))
      (fun _ => Stalled service script k (done ++ [step])) := by
  intro w stalled
  have counted : Counted service script w.steps.length w.messages w.searches w.orchestrator.solves
      w.orchestrator.reviews.length w :=
    ⟨⟨stalled.agreed, rfl⟩, rfl, Nat.le_add_left .., rfl, rfl⟩
  by_cases searching : step = .search
  · subst searching
    rw [stalled.unsearched (once rfl)] at counted
    refine (counted_executeSearch.mono (fun _ same => same)
      (fun _ w counted => ⟨counted.tried.agreed, ?_⟩) fun _ w agreed => ⟨agreed, ?_⟩) w counted
    all_goals
      exact fun absent => absurd (List.mem_append_right _ (List.mem_singleton_self _)) absent
  · refine ((counted_executePlanStep searching).mono (fun _ same => same) (fun _ later counted => ?_)
      fun _ later tried => ?_) w counted
    · refine ⟨counted.tried.agreed, fun absent => ?_⟩
      rw [counted.tried.searches]
      exact stalled.unsearched fun member => absent (List.mem_append_left _ member)
    · refine ⟨tried.agreed, fun absent => ?_⟩
      rw [tried.searches]
      exact stalled.unsearched fun member => absent (List.mem_append_left _ member)

/-- A round that has lost a node still runs the others. -/
theorem stalled_gather (distinct : steps.Nodup) (once : .search ∈ steps → .search ∉ done) :
    Ends (Stalled service script k done)
      (gather (steps.map (service.executePlanStep script graph (script.solve k))))
      (fun _ => Agreed service script) (fun _ _ => False) := by
  induction steps generalizing done with
  | nil => exact ends_pure fun _ stalled => stalled.agreed
  | cons step rest ih =>
      obtain ⟨apart, distinct⟩ := List.nodup_cons.mp distinct
      refine Ends.bind (m := fun _ => Stalled service script k (done ++ [step]))
        ((stalled_step fun same => once (same ▸ List.mem_cons_self)).captured (fun _ _ same => same)
          fun _ _ same => same) fun _ => ?_
      refine Ends.bind (ih distinct fun member searched => ?_) fun _ => ends_pure fun _ same => same
      rcases List.mem_append.mp searched with before | now
      · exact once (List.mem_cons_of_mem _ member) before
      · exact apart (List.mem_singleton.mp now ▸ member)

/-- A round without a failure has executed all its nodes. -/
theorem solved_gather (distinct : steps.Nodup) (once : .search ∈ steps → .search ∉ done) :
    Ends (Solved service script n slack k solves reviews done)
      (gather (steps.map (service.executePlanStep script graph (script.solve k))))
      (fun results w => Agreed service script w ∧ (firstFailure results = none →
        Solved service script n slack k solves reviews (done ++ steps) w)) (fun _ _ => False) := by
  induction steps generalizing done with
  | nil =>
      refine ends_pure fun w solved => ⟨solved.tried.agreed, fun _ => ?_⟩
      rwa [List.append_nil]
  | cons step rest ih =>
      obtain ⟨apart, distinct⟩ := List.nodup_cons.mp distinct
      have later (member : .search ∈ rest) : StepId.search ∉ done ++ [step] := by
        intro searched
        rcases List.mem_append.mp searched with before | now
        · exact once (List.mem_cons_of_mem _ member) before
        · exact apart (List.mem_singleton.mp now ▸ member)
      refine Ends.bind (m := fun result w =>
          (result.isOk = true ∧ Solved service script n slack k solves reviews (done ++ [step]) w) ∨
            result.isOk = false ∧ Stalled service script k (done ++ [step]) w)
        ((solved_step fun same => once (same ▸ List.mem_cons_self)).captured
          (fun _ _ solved => .inl ⟨rfl, solved⟩) fun _ _ stalled => .inr ⟨rfl, stalled⟩) fun result => ?_
      rintro w (⟨good, solved⟩ | ⟨bad, stalled⟩)
      · refine Ends.bind (ih distinct later) (fun results => ?_) w solved
        refine ends_pure fun w ⟨agreed, finished⟩ => ⟨agreed, fun clean => ?_⟩
        cases result with
        | error => contradiction
        | ok value =>
            have complete := finished clean
            rwa [List.append_assoc] at complete
      · refine Ends.bind (stalled_gather distinct later) (fun results => ?_) w stalled
        refine ends_pure fun w agreed => ⟨agreed, fun clean => ?_⟩
        cases result with
        | error => contradiction
        | ok value => contradiction

end solving

section rounds
variable {V : Type} {service : PlanningService V} {script : WorkflowScript V}
  {n slack k solves reviews : Nat} {graph : List AgentPlanStep}

theorem Solved.perm {done other : List StepId} {w : Workflow V} (perm : done.Perm other)
    (solved : Solved service script n slack k solves reviews done w) :
    Solved service script n slack k solves reviews other w := by
  unfold Solved at solved ⊢
  rwa [← (perm.map _).sum_eq, ← perm.count_eq, ← perm.count_eq]

theorem foldl_retasked {α : Type} {change : Workflow V → α → Workflow V}
    (retasks : ∀ w item, ∃ tasks, change w item = { w with tasks := tasks }) (items : List α)
    (w : Workflow V) : ∃ tasks, items.foldl change w = { w with tasks := tasks } := by
  induction items generalizing w with
  | nil => exact ⟨w.tasks, rfl⟩
  | cons item rest ih =>
      obtain ⟨tasks, changed⟩ := retasks w item
      obtain ⟨last, rested⟩ := ih { w with tasks := tasks }
      exact ⟨last, by rw [List.foldl_cons, changed, rested]⟩

theorem counted_retasked {change : Workflow V → Workflow V}
    (retasks : ∀ w, ∃ tasks, change w = { w with tasks := tasks }) :
    Ends (Counted service script n slack k solves reviews) (modify change : Run V PUnit)
      (fun _ => Counted service script n slack k solves reviews) (fun _ => Tried service script k) := by
  refine counted_modify fun w => ?_
  obtain ⟨tasks, changed⟩ := retasks w
  rw [changed]
  exact ⟨rfl, rfl, rfl, rfl, rfl, rfl⟩

theorem counted_setAll {steps : List StepId} {status : TaskStatus} {begins : Bool} :
    Ends (Counted service script n slack k solves reviews) (setAll steps status begins)
      (fun _ => Counted service script n slack k solves reviews) (fun _ => Tried service script k) :=
  counted_retasked (foldl_retasked (fun _ _ => ⟨_, rfl⟩) steps)

theorem counted_settle {results : List (StepId × Except Failure (Option AIPlanResult))} :
    Ends (Counted service script n slack k solves reviews) (settle results)
      (fun _ => Counted service script n slack k solves reviews) (fun _ => Tried service script k) :=
  counted_retasked (foldl_retasked (fun _ _ => ⟨_, rfl⟩) results)

theorem counted_setPlanStatus {key : TaskKey} {status : TaskStatus} {begins : Bool} :
    Ends (Counted service script n slack k solves reviews) (setPlanStatus key status begins)
      (fun _ => Counted service script n slack k solves reviews) (fun _ => Tried service script k) :=
  counted_retasked fun _ => ⟨_, rfl⟩

/-- What keeps all counts keeps the agreement after any other count. -/
theorem keeps_tried {α : Type} {prog : Run V α}
    (counts : ∀ n slack solves reviews, Ends (Counted service script n slack k solves reviews) prog
      (fun _ => Counted service script n slack k solves reviews) (fun _ => Tried service script k)) :
    Keeps (Tried service script k) prog := by
  intro w tried
  have counted : Counted service script w.steps.length w.messages k w.orchestrator.solves
      w.orchestrator.reviews.length w := ⟨tried, rfl, Nat.le_add_left .., rfl, rfl⟩
  exact (counts _ _ _ _).mono (fun _ same => same) (fun _ _ counted => counted.tried)
    (fun _ _ same => same) w counted

theorem keeps_agreed {α : Type} {prog : Run V α}
    (counts : ∀ n slack k solves reviews, Ends (Counted service script n slack k solves reviews) prog
      (fun _ => Counted service script n slack k solves reviews) (fun _ => Tried service script k)) :
    Keeps (Agreed service script) prog :=
  fun w agreed => Ends.mono (keeps_tried fun n slack => counts n slack w.searches) (fun _ same => same)
    (fun _ _ tried => tried.agreed) (fun _ _ tried => tried.agreed) w ⟨agreed, rfl⟩

/-- The nodes of a round, and those after it, are the pending ones. -/
theorem pending_perm {pending ready : List StepId} (distinct : pending.Nodup) (once : ready.Nodup)
    (subset : ∀ step ∈ ready, step ∈ pending) :
    (ready ++ pending.filter (· ∉ ready)).Perm pending := by
  have chosen : ready.Perm (pending.filter (· ∈ ready)) := by
    refine (List.perm_ext_iff_of_nodup once (distinct.filter _)).mpr fun step => ?_
    rw [List.mem_filter, decide_eq_true_eq]
    exact ⟨fun member => ⟨subset step member, member⟩, fun both => both.2⟩
  refine (chosen.append_right _).trans ?_
  have parted := List.filter_append_perm (fun step => decide (step ∈ ready)) pending
  simpa only [decide_not] using parted

theorem solved_executeRounds (fuel : Nat) (pending completed : List StepId)
    (plan : Option AIPlanResult) (distinct : (graph.map AgentPlanStep.stepId).Nodup)
    (parts : (completed ++ pending).Perm (graph.map AgentPlanStep.stepId)) :
    Ends (Solved service script n slack k solves reviews completed)
      (service.executeRounds script graph (script.solve k) fuel pending completed plan)
      (fun _ => Solved service script n slack k solves reviews (graph.map AgentPlanStep.stepId))
      (fun _ => Agreed service script) := by
  have blocks (steps : List StepId) : Keeps (Agreed service script) (setAll steps .blocked false) :=
    keeps_agreed fun _ _ _ _ _ => counted_setAll
  have checks : Keeps (Agreed service script) service.checkpoint :=
    keeps_agreed fun _ _ _ _ _ => counted_checkpoint
  induction fuel generalizing pending completed plan with
  | zero => exact ends_throw fun _ solved => solved.tried.agreed
  | succ fuel ih =>
      unfold PlanningService.executeRounds
      dsimp only
      split
      · rename_i finished
        subst finished
        rw [List.append_nil] at parts
        exact ends_pure fun _ solved => solved.perm parts
      generalize chosen : (graph.filter fun step => step.stepId ∈ pending ∧
        ∀ dependency ∈ step.dependsOn, dependency ∈ completed).map AgentPlanStep.stepId = ready
      split
      · refine Ends.bind (m := fun _ => Agreed service script)
          (Ends.narrow (blocks pending) fun _ solved => solved.tried.agreed) fun _ => ?_
        exact ends_throw fun _ same => same
      have tried : ∀ (_ : Failure) (w : Workflow V), Tried service script (k + completed.count .search) w →
          Agreed service script w := fun _ _ tried => tried.agreed
      -- The nodes of the round are pending, and the search is among them at most once.
      have whole : (completed ++ pending).Nodup := parts.nodup_iff.mpr distinct
      obtain ⟨-, pendingOnce, apart⟩ := List.nodup_append'.mp whole
      have once : ready.Nodup := by
        rw [← chosen]
        exact distinct.sublist (List.filter_sublist.map _)
      have subset : ∀ step ∈ ready, step ∈ pending := by
        intro step member
        rw [← chosen] at member
        obtain ⟨node, listed, rfl⟩ := List.mem_map.mp member
        exact (of_decide_eq_true (List.mem_filter.mp listed).2).1
      have unsearched : .search ∈ ready → .search ∉ completed := fun member before =>
        apart before (subset _ member)
      have later : (completed ++ ready ++ pending.filter (· ∉ ready)).Perm
          (graph.map AgentPlanStep.stepId) := by
        rw [List.append_assoc]
        exact ((pending_perm pendingOnce once subset).append_left completed).trans parts
      refine Ends.bind (counted_setAll.mono (fun _ same => same) (fun _ _ same => same) tried)
        fun _ => ?_
      refine Ends.bind (counted_checkpoint.mono (fun _ same => same) (fun _ _ same => same) tried)
        fun _ => ?_
      refine Ends.bind ((solved_gather once unsearched).mono (fun _ same => same) (fun _ _ same => same)
        fun _ _ never => never.elim) fun results => ?_
      cases failure : firstFailure results with
      | some failure =>
          have settles : Keeps (Agreed service script) (settle (ready.zip results)) :=
            keeps_agreed fun _ _ _ _ _ => counted_settle
          refine Ends.bind (m := fun _ => Agreed service script)
            (Ends.narrow settles fun _ gathered => gathered.1) fun _ => ?_
          refine Ends.bind (m := fun _ => Agreed service script) (blocks _) fun _ => ?_
          exact Ends.bind checks fun _ => ends_throw fun _ same => same
      | none =>
          refine Ends.bind (m := fun _ => Solved service script n slack k solves reviews
            (completed ++ ready)) ?_ fun _ => ?_
          · exact (counted_settle.mono (fun _ gathered => gathered.2 rfl) (fun _ _ same => same)
              fun _ _ tried => tried.agreed)
          · refine Ends.bind (counted_checkpoint.mono (fun _ same => same) (fun _ _ same => same)
              fun _ _ tried => tried.agreed) fun _ => ?_
            exact ih _ _ _ later

/-- A solve adds its recoveries, its search, its plan and a safety check. -/
theorem counted_executePlanningStages {intent : PlanIntent}
    (safety : script.checksSafety = intent.safetySensitive) :
    Ends (Counted service script n slack k solves reviews)
      (service.executePlanningStages script intent (script.solve k))
      (fun _ => Counted service script (n + ((script.solve k).search.recoveries service.maxAttempts +
        2 + script.checksSafety.toNat)) (slack + 2) (k + 1) (solves + 1) reviews)
      (fun _ => Agreed service script) := by
  have tried : ∀ (_ : Failure) (w : Workflow V), Tried service script k w → Agreed service script w :=
    fun _ _ tried => tried.agreed
  have distinct : (intent.graph.map AgentPlanStep.stepId).Nodup := by
    unfold PlanIntent.graph
    cases intent.safetySensitive <;> cases intent.weatherRequired <;> decide
  have whole (w : Workflow V) (solved : Solved service script n slack k solves reviews
      (intent.graph.map AgentPlanStep.stepId) w) :
      Counted service script (n + ((script.solve k).search.recoveries service.maxAttempts + 2 +
        script.checksSafety.toNat)) (slack + 2) (k + 1) (solves + 1) reviews w := by
    rw [safety]
    unfold Solved PlanIntent.graph at solved
    revert solved
    cases intent.safetySensitive <;> cases intent.weatherRequired <;> intro solved <;>
      simpa [buildExecutionPlan, SolveScript.weight, Nat.add_assoc] using solved
  refine Ends.bind ((counted_retasked fun _ => ⟨_, rfl⟩).mono (fun _ same => same)
    (fun _ _ same => same) tried) fun _ => ?_
  refine Ends.bind (counted_checkpoint.mono (fun _ same => same) (fun _ _ same => same) tried)
    fun _ => ?_
  refine Ends.bind (m := fun _ => Counted service script (n +
    ((script.solve k).search.recoveries service.maxAttempts + 2 + script.checksSafety.toNat)) (slack + 2)
    (k + 1) (solves + 1) reviews) ?_ fun plan => ?_
  · refine (solved_executeRounds _ _ [] none distinct (.refl _)).mono (fun _ counted => ?_)
      (fun _ => whole) fun _ _ same => same
    exact counted
  · cases plan with
    | some result => exact ends_pure fun _ same => same
    | none => exact ends_throw fun _ counted => counted.tried.agreed

end rounds

section plan
variable {V : Type} {service : PlanningService V} {script : WorkflowScript V}
  {n slack k solves reviews : Nat}

theorem counted_start : Ends (Counted service script 0 0 0 0 0) service.start
    (fun _ => Counted service script 1 1 0 0 0) (fun _ => Tried service script 0) := by
  refine Ends.bind (Counted.aside (keeps_initialState counted_ambient)) fun state => ?_
  refine Ends.bind (counted_modify fun w => ⟨rfl, rfl, rfl, rfl, rfl, rfl⟩) fun _ => ?_
  refine Ends.bind counted_dispatch fun _ => Ends.bind counted_consume fun _ => ?_
  refine Ends.bind counted_work fun _ => Ends.bind counted_dispatch fun _ => ?_
  exact Ends.bind (counted_record (by decide)) fun _ => counted_checkpoint

theorem counted_understand : Ends (Counted service script n slack k solves reviews)
    (service.understand script)
    (fun understood w => script.checksSafety = understood.1.safetySensitive ∧
      Counted service script (n + 1) slack k solves reviews w) (fun _ => Tried service script k) := by
  refine Ends.bind counted_consume fun _ => ?_
  refine Ends.bind counted_agent fun execution => Ends.assume fun given => ?_
  refine Ends.bind counted_write fun _ => Ends.bind counted_dispatch fun _ => ?_
  refine Ends.bind (counted_record (by decide)) fun _ => Ends.bind counted_checkpoint fun _ => ?_
  refine ends_pure fun _ counted => ⟨?_, counted⟩
  rw [WorkflowScript.checksSafety, given]

theorem counted_planNext {intent : PlanIntent} : Ends (Counted service script n slack k solves reviews)
    (service.planNext intent) (fun _ => Counted service script (n + 1) slack k solves reviews)
    (fun _ => Tried service script k) := by
  refine Ends.bind counted_consume fun _ => Ends.bind counted_read fun _ => ?_
  refine Ends.bind counted_work fun _ => Ends.bind (counted_retasked fun _ => ⟨_, rfl⟩) fun _ => ?_
  refine Ends.bind counted_setPlanStatus fun _ => Ends.bind counted_dispatch fun _ => ?_
  exact Ends.bind (counted_record (by decide)) fun _ => counted_checkpoint

/-- A review adds one step where it is completed, and two messages of a worker in any case. -/
theorem counted_review {plan : Plan} {outcome : Outcome ReviewReport} :
    Ends (Counted service script n slack k solves reviews) (service.review script plan outcome)
      (fun _ w => ∃ more ≤ 1,
        Counted service script (n + more) (slack + 2) k solves (reviews + more) w)
      (fun _ => Tried service script k) := by
  have skipped (d : Nat) (small : d ≤ slack + 2) (w : Workflow V)
      (counted : Counted service script n d k solves reviews w) :
      ∃ more ≤ 1, Counted service script (n + more) (slack + 2) k solves (reviews + more) w :=
    ⟨0, Nat.zero_le 1, { counted with messages := counted.messages.trans (Nat.add_le_add_left small n) }⟩
  have completes (execution : AgentExecution ReviewReport) :
      Ends (Counted service script n (slack + 2) k solves reviews) (do
        let reached ← get
        if reached.orchestrator.settings.maxAgentWorkflowCostUsd <
            reached.orchestrator.totalCostUsd + execution.estimatedCostUsd then do
          modify fun w => { w with status := .budgetExceeded }
          setPlanStatus .critic .failed false
          service.checkpoint
          pure none
        else do
          service.write script .critic "critic_reviewed" ["evaluation_result"]
          dispatch .critic .supervisor .reviewReport
          Run.record execution 0
          modify fun w =>
            let completed := ⟨w.orchestrator.solves, plan, execution.output⟩
            { w with orchestrator :=
                { w.orchestrator with reviews := w.orchestrator.reviews ++ [completed] } }
          setPlanStatus .critic .succeeded false
          service.checkpoint
          pure (some execution.output) : Run V (Option ReviewReport))
        (fun _ w => ∃ more ≤ 1,
          Counted service script (n + more) (slack + 2) k solves (reviews + more) w)
        (fun _ => Tried service script k) := by
    refine ends_get fun reached counted => ?_
    split
    · refine Ends.bind (m := fun _ => Counted service script n (slack + 2) k solves reviews)
        (ends_modify fun _ same => ?_) fun _ => ?_
      · exact same ▸ counted.frame rfl rfl rfl rfl rfl rfl
      refine Ends.bind counted_setPlanStatus fun _ => Ends.bind counted_checkpoint fun _ => ?_
      exact ends_pure (skipped _ le_rfl)
    · refine Ends.bind (counted_write.narrow fun _ same => same ▸ counted) fun _ => ?_
      refine Ends.bind counted_dispatch fun _ => Ends.bind (counted_record (by decide)) fun _ => ?_
      refine Ends.bind (m := fun _ => Counted service script (n + 1) (slack + 2) k solves (reviews + 1))
        (ends_modify fun w counted => ?_) fun _ => ?_
      · refine ⟨⟨counted.tried.agreed, counted.tried.searches⟩, counted.steps, counted.messages,
          counted.solves, ?_⟩
        simp [counted.reviews]
      · refine Ends.bind counted_setPlanStatus fun _ => Ends.bind counted_checkpoint fun _ => ?_
        exact ends_pure fun _ counted => ⟨1, le_rfl, counted⟩
  refine ends_get fun w counted => ?_
  have start : ∀ later, later = w → Counted service script n slack k solves reviews later :=
    fun _ same => same ▸ counted
  split
  · refine Ends.bind (counted_setPlanStatus.narrow start) fun _ => Ends.bind counted_checkpoint fun _ => ?_
    refine Ends.bind counted_consume fun _ => Ends.bind counted_read fun _ => ?_
    refine Ends.bind counted_work fun _ => ?_
    refine Ends.bind (m := fun answer later =>
      (answer.isOk = true → Counted service script n (slack + 2) k solves reviews later) ∧
        (answer.isOk = false → Tried service script k later))
      (counted_placed.captured
        (fun _ _ given => ⟨fun _ => given.2, fun failed => Bool.noConfusion failed⟩)
        fun _ _ tried => ⟨fun good => Bool.noConfusion good, fun _ => tried⟩) fun answer => ?_
    cases answer with
    | ok execution => exact (completes execution).narrow fun _ given => given.1 rfl
    | error failure =>
        have fails : Ends (Tried service script k) (service.failedCritic failure)
            (fun _ _ => False) (fun _ => Tried service script k) := by
          unfold PlanningService.failedCritic
          split
          · exact ends_throw fun _ same => same
          · refine Ends.bind (keeps_tried fun _ _ _ _ => counted_setPlanStatus) fun _ => ?_
            refine Ends.bind (keeps_tried fun _ _ _ _ => counted_checkpoint) fun _ => ?_
            exact ends_throw fun _ same => same
        exact Ends.bind (fails.narrow fun _ given => given.2 rfl) fun _ _ never => never.elim
  · refine Ends.bind (counted_setPlanStatus.narrow start) fun _ => Ends.bind counted_checkpoint fun _ => ?_
    exact ends_pure (skipped _ (Nat.le_add_right slack 2))

theorem counted_applySoftAdjustments {report : ReviewReport} :
    Ends (Counted service script n slack k solves reviews)
      (service.applySoftAdjustments script report)
      (fun _ => Counted service script n (slack + 1) k solves reviews)
      (fun _ => Tried service script k) := by
  unfold PlanningService.applySoftAdjustments
  split
  · refine ends_pure fun w counted => ?_
    exact { counted with messages := counted.messages.trans (Nat.le_succ _) }
  · refine Ends.bind (counted_modify fun w => ⟨rfl, rfl, rfl, rfl, rfl, rfl⟩) fun _ => ?_
    refine Ends.bind counted_consume fun _ => Ends.bind counted_read fun _ => ?_
    refine Ends.bind counted_work fun _ => Ends.bind counted_write fun _ => ?_
    exact Ends.bind counted_dispatch fun _ => counted_checkpoint

theorem counted_close {result : AIPlanResult} {status : TraceStatus} :
    Ends (Counted service script n slack k solves reviews) (service.close script result status)
      (fun _ => Counted service script (n + 1) slack k solves reviews)
      (fun _ => Tried service script k) := by
  refine Ends.bind (m := fun _ => Counted service script (n + 1) slack k solves reviews) ?_ fun _ =>
    Ends.bind (counted_modify fun w => ?_) fun _ => ends_pure fun _ same => same
  · refine Ends.bind counted_setPlanStatus fun _ => Ends.bind counted_checkpoint fun _ => ?_
    refine Ends.bind (counted_modify fun w => ⟨rfl, rfl, rfl, rfl, rfl, rfl⟩) fun _ => ?_
    refine Ends.bind counted_write fun _ => Ends.bind counted_work fun _ => ?_
    refine Ends.bind counted_dispatch fun _ => Ends.bind (counted_record (by decide)) fun _ => ?_
    refine Ends.bind counted_setPlanStatus fun _ => Ends.bind counted_read fun _ => ?_
    exact counted_checkpoint
  · exact ⟨rfl, rfl, rfl, rfl, rfl, rfl⟩

/-- A run after its last solve and review. -/
def Settled (service : PlanningService V) (script : WorkflowScript V) (steps : Nat) (w : Workflow V) :
    Prop :=
  ∃ solves ≤ 2, ∃ reviews ≤ 2, Counted service script
    (steps + ((List.range solves).map fun k => (script.solve k).search.recoveries service.maxAttempts +
      2 + script.checksSafety.toNat).sum + reviews) 10 solves solves reviews w

theorem settled_reviewed {intent : PlanIntent} {result : AIPlanResult}
    (safety : script.checksSafety = intent.safetySensitive) :
    Ends (Counted service script (3 + ((script.solve 0).search.recoveries service.maxAttempts + 2 +
        script.checksSafety.toNat)) 3 1 1 0) (service.reviewed script intent result)
      (fun _ => Settled service script 3) (fun _ => Agreed service script) := by
  have tried (k : Nat) : ∀ (_ : Failure) (w : Workflow V), Tried service script k w →
      Agreed service script w := fun _ _ tried => tried.agreed
  have once (n reviews d : Nat) (few : reviews ≤ 1) (small : d ≤ 10) (w : Workflow V)
      (counted : Counted service script (n + reviews) d 1 1 reviews w)
      (same : n = 3 + ((script.solve 0).search.recoveries service.maxAttempts + 2 +
        script.checksSafety.toNat)) : Settled service script 3 w := by
    refine ⟨1, by decide, reviews, Nat.le_succ_of_le few, ?_⟩
    simp only [List.range_one, List.map_singleton, List.sum_singleton, ← same]
    exact { counted with messages := counted.messages.trans (Nat.add_le_add_left small _) }
  refine Ends.bind (counted_review.mono (fun _ same => same) (fun _ _ same => same) (tried 1))
    fun review => ?_
  rintro w ⟨first, few, counted⟩
  rw [Nat.zero_add] at counted
  dsimp only
  cases review with
  | none => exact once _ _ _ few (by decide) w counted rfl
  | some review =>
      refine (ends_get fun w counted => ?_ : Ends (Counted service script
        (3 + ((script.solve 0).search.recoveries service.maxAttempts + 2 + script.checksSafety.toNat) +
          first) (3 + 2) 1 1 first) _ (fun _ => Settled service script 3)
        (fun _ => Agreed service script)) w counted
      split
      · refine Ends.bind ((counted_applySoftAdjustments.narrow fun _ same => same ▸ counted).mono
          (fun _ same => same) (fun _ _ same => same) (tried 1)) fun _ => ?_
        refine Ends.bind (counted_executePlanningStages safety) fun again => ?_
        refine Ends.bind (counted_review.mono (fun _ same => same) (fun _ _ same => same) (tried 2))
          fun second => ?_
        rintro w ⟨more, fewer, counted⟩
        have settled : Settled service script 3 w := by
          refine ⟨2, le_rfl, first + more, Nat.add_le_add few fewer, ?_⟩
          simp only [List.range_succ, List.range_zero, List.nil_append, List.map_append,
            List.map_singleton, List.sum_append, List.sum_singleton]
          convert counted using 1
          omega
        cases second <;> exact settled
      · refine ends_pure fun later same => ?_
        subst same
        exact once _ _ _ few (by decide) _ counted rfl

/-- A run that has finished: one that asks its questions has three steps. -/
theorem finished_attempt {request : AIPlanRequest} :
    Ends (Counted service script 0 0 0 0 0) (service.attempt script request)
      (fun _ w => Counted service script 3 10 0 0 0 w ∨ Settled service script 4 w)
      (fun _ => Agreed service script) := by
  have tried (k : Nat) : ∀ (_ : Failure) (w : Workflow V), Tried service script k w →
      Agreed service script w := fun _ _ tried => tried.agreed
  have closes {result : AIPlanResult} {status : TraceStatus} :
      Ends (Settled service script 3) (service.close script result status)
        (fun _ => Settled service script 4) (fun _ => Agreed service script) := by
    rintro w ⟨solves, once, reviews, few, counted⟩
    refine (counted_close.mono (fun _ same => same)
      (fun _ later counted => ⟨solves, once, reviews, few, ?_⟩) (tried solves)) w counted
    convert counted using 1
    omega
  have planned : Ends (Counted service script 0 0 0 0 0) (service.planOnce script request)
      (fun _ w => Counted service script 3 10 0 0 0 w ∨ Settled service script 4 w)
      (fun _ => Agreed service script) := by
    refine Ends.bind (counted_start.mono (fun _ same => same) (fun _ _ same => same) (tried 0))
      fun _ => ?_
    refine Ends.bind (counted_understand.mono (fun _ same => same) (fun _ _ same => same) (tried 0))
      fun understood => Ends.assume fun safety => ?_
    obtain ⟨intent, requiredQuestions⟩ := understood
    dsimp only
    split
    · refine counted_close.mono (fun _ same => same) (fun _ w counted => .inl ?_) (tried 0)
      exact { counted with messages := counted.messages.trans (by decide) }
    · refine Ends.bind (counted_planNext.mono (fun _ same => same) (fun _ _ same => same) (tried 0))
        fun _ => ?_
      refine Ends.bind (counted_executePlanningStages safety) fun result => ?_
      split
      · refine (closes.narrow fun w counted => ?_).weaken fun _ _ settled => .inr settled
        refine ⟨1, by decide, 0, by decide, ?_⟩
        simp only [List.range_one, List.map_singleton, List.sum_singleton]
        exact { counted with messages := counted.messages.trans (by omega) }
      · refine Ends.bind (settled_reviewed safety) fun result => ?_
        exact closes.weaken fun _ _ settled => .inr settled
  refine Ends.bind planned fun result => ?_
  rintro w (counted | ⟨solves, once, reviews, few, counted⟩)
  · refine (Ends.bind (counted_checkpoint.mono (fun _ same => same) (fun _ _ same => same) (tried 0))
      fun _ => ends_pure fun _ counted => .inl counted) w counted
  · refine (Ends.bind (counted_checkpoint.mono (fun _ same => same) (fun _ _ same => same)
      (tried solves)) fun _ => ends_pure fun _ counted =>
        .inr ⟨solves, once, reviews, few, counted⟩) w counted

/-- The handler of a failed run records no step. -/
theorem agreed_fail (values : Int → String → V) :
    Keeps (Agreed service script) (service.fail values) := by
  have aside {α : Type} {prog : Run V α}
      (keeps : ∀ n slack k solves reviews,
        Keeps (Counted service script n slack k solves reviews) prog) :
      Keeps (Agreed service script) prog :=
    keeps_agreed fun n slack k solves reviews => Counted.aside (keeps n slack k solves reviews)
  have commits : Keeps (Agreed service script) (commit (V := V)) :=
    aside fun _ _ _ _ _ => keeps_await counted_ambient fun _ counted =>
      counted.frame rfl rfl rfl rfl rfl rfl
  have finishes : Keeps (Agreed service script) (do
      modify Workflow.failedTrace
      commit
      work : Run V Unit) := by
    refine Keeps.bind (keeps_modify fun _ agreed => agreed) fun _ => Keeps.bind commits fun _ => ?_
    exact aside fun _ _ _ _ _ => keeps_work counted_ambient
  unfold PlanningService.fail
  split
  · refine keeps_get fun w => ?_
    dsimp only
    split
    · refine Keeps.bind (aside fun _ _ _ _ _ => keeps_update counted_ambient) fun _ => ?_
      refine Keeps.bind (aside fun _ _ _ _ _ => keeps_read counted_ambient) fun _ => ?_
      exact finishes
    · exact finishes
  · exact keeps_pure

end plan

def Ending.returns : Ending → Bool
  | .returned _ => true
  | .raised _ => false
  | .replaced _ _ => false

theorem Ending.exists_of_returns {ending : Ending} (returns : ending.returns = true) :
    ∃ result, ending = .returned result := by
  cases ending with
  | returned result => exact ⟨result, rfl⟩
  | raised => contradiction
  | replaced => contradiction

def maxSteps : Nat := 20

def maxMessages : Nat := 40

/-- Every step that the run came to record meets its bound, and the finished trace meets its own. -/
def TraceKept {V : Type} (run : Ending × Workflow V) : Prop :=
  (∀ calls ∈ run.2.recorded, calls ≤ maxToolCalls) ∧
    ∀ result, run.1 = .returned result →
      run.2.steps.length ≤ maxSteps ∧ run.2.messages ≤ maxMessages

/-- The searches that the run reached are within the bound on tool calls, and so are the steps of the
solves and reviews that a returning run went through. -/
def TraceFits {V : Type} (service : PlanningService V) (script : WorkflowScript V)
    (run : Ending × Workflow V) : Prop :=
  (∀ k < run.2.searches, (script.solve k).search.toolCalls service.maxAttempts ≤ maxToolCalls) ∧
    ∀ result, run.1 = .returned result →
      script.stepCount service.maxAttempts run.2.orchestrator.solves
        run.2.orchestrator.reviews.length ≤ maxSteps

/-- However far a run comes, its trace fits. -/
def WorkflowScript.Fits {V : Type} (script : WorkflowScript V) (maxAttempts : Nat) : Prop :=
  (∀ k, (script.solve k).search.toolCalls maxAttempts ≤ maxToolCalls) ∧
    script.stepCount maxAttempts 2 2 ≤ maxSteps

theorem WorkflowScript.stepCount_mono {V : Type} {script : WorkflowScript V}
    {maxAttempts solves reviews more further : Nat} (solved : solves ≤ more)
    (reviewed : reviews ≤ further) :
    script.stepCount maxAttempts solves reviews ≤ script.stepCount maxAttempts more further := by
  have sums : ((List.range solves).map fun k => (script.solve k).search.recoveries maxAttempts + 2 +
        script.checksSafety.toNat).sum ≤
      ((List.range more).map fun k => (script.solve k).search.recoveries maxAttempts + 2 +
        script.checksSafety.toNat).sum :=
    ((List.range_sublist.mpr solved).map _).sum_le_sum (fun _ _ => Nat.zero_le _)
  unfold WorkflowScript.stepCount
  omega

theorem not_kept_of_recorded {V : Type} {run : Ending × Workflow V} {calls : Nat}
    (recorded : calls ∈ run.2.recorded) (many : maxToolCalls < calls) : ¬ TraceKept run :=
  fun kept => Nat.not_le.mpr many (kept.1 calls recorded)

theorem not_kept_of_steps {V : Type} {run : Ending × Workflow V} {result : AIPlanResult} {n : Nat}
    (returned : run.1 = .returned result) (steps : run.2.steps.length = n) (many : maxSteps < n) :
    ¬ TraceKept run :=
  fun kept => Nat.not_le.mpr many (steps ▸ (kept.2 result returned).1)

/-- What a run leaves of its trace. -/
structure Traced {V : Type} (service : PlanningService V) (script : WorkflowScript V)
    (run : Ending × Workflow V) : Prop where
  agreed : Agreed service script run.2
  returned : ∀ result, run.1 = .returned result →
    run.2.orchestrator.solves ≤ 2 ∧ run.2.orchestrator.reviews.length ≤ 2 ∧
      run.2.messages ≤ run.2.steps.length + 10 ∧
      (run.2.steps.length ≤ maxSteps ↔
        script.stepCount service.maxAttempts run.2.orchestrator.solves
          run.2.orchestrator.reviews.length ≤ maxSteps)

theorem Traced.unreturned {V : Type} {service : PlanningService V} {script : WorkflowScript V}
    {ending : Ending} {w : Workflow V} (agreed : Agreed service script w)
    (unreturned : ∀ result, ending ≠ .returned result) : Traced service script (ending, w) :=
  ⟨agreed, fun result returned => absurd returned (unreturned result)⟩

theorem plan_traced {V : Type} {service : PlanningService V} {script : WorkflowScript V}
    {request : AIPlanRequest} {now : Nat} {interruptions : List Interruption} :
    Traced service script (service.plan script request (service.unstarted now interruptions)) := by
  have fresh : Counted service script 0 0 0 0 0 (service.unstarted now interruptions) :=
    ⟨⟨by simp [Agreed, PlanningService.unstarted], rfl⟩, rfl, le_rfl, rfl, rfl⟩
  have raised (failure : Failure) (result : AIPlanResult) : Ending.raised failure ≠ .returned result := by
    simp
  have replaced (failure other : Failure) (result : AIPlanResult) :
      Ending.replaced failure other ≠ .returned result := by
    simp
  have cleared {n k solves reviews : Nat} :
      Keeps (Counted service script n 10 k solves reviews) (clearShortTermMemory (V := V)) :=
    keeps_await counted_ambient fun _ counted => counted.frame rfl rfl rfl rfl rfl rfl
  unfold PlanningService.plan
  cases tried : service.attempt script request (service.unstarted now interruptions) with
  | error failure w =>
      have agreed : Agreed service script w := finished_attempt.failure fresh tried
      dsimp only
      split
      · exact .unreturned agreed (raised failure)
      · have handled := agreed_fail script.values w agreed
        cases ran : service.fail script.values w with
        | ok _ later =>
            rw [ran] at handled
            exact .unreturned handled (raised failure)
        | error other later =>
            rw [ran] at handled
            exact .unreturned handled (replaced failure other)
  | ok result w =>
      dsimp only
      rcases finished_attempt.result fresh tried with counted | ⟨solves, once, reviews, few, counted⟩
      · have kept := cleared w counted
        cases ran : clearShortTermMemory w with
        | error failure later =>
            rw [ran] at kept
            exact .unreturned kept.tried.agreed (raised failure)
        | ok _ later =>
            rw [ran] at kept
            refine ⟨kept.tried.agreed, fun _ _ => ?_⟩
            dsimp only
            rw [kept.solves, kept.reviews, kept.steps]
            exact ⟨by decide, by decide, kept.messages, iff_of_true (by decide) (by simp [WorkflowScript.stepCount, maxSteps])⟩
      · have kept := cleared w counted
        cases ran : clearShortTermMemory w with
        | error failure later =>
            rw [ran] at kept
            exact .unreturned kept.tried.agreed (raised failure)
        | ok _ later =>
            rw [ran] at kept
            refine ⟨kept.tried.agreed, fun _ _ => ?_⟩
            dsimp only
            rw [kept.solves, kept.reviews, kept.steps]
            exact ⟨once, few, kept.messages, Iff.rfl⟩

/-- The bounds hold of a run exactly where its searches and its steps fit, and of every run where the
failures cannot add up to more. -/
theorem trace_bounds_kept {V : Type} (service : PlanningService V) (script : WorkflowScript V)
    (request : AIPlanRequest) (now : Nat) (interruptions : List Interruption) :
    (TraceKept (service.plan script request (service.unstarted now interruptions)) ↔
      TraceFits service script
        (service.plan script request (service.unstarted now interruptions))) ∧
    (script.Fits service.maxAttempts →
      TraceKept (service.plan script request (service.unstarted now interruptions))) := by
  have traced : Traced service script
      (service.plan script request (service.unstarted now interruptions)) := plan_traced
  generalize service.plan script request (service.unstarted now interruptions) = run at traced ⊢
  have exactly : TraceKept run ↔ TraceFits service script run := by
    refine and_congr traced.agreed (forall_congr' fun result => imp_congr_right fun returned => ?_)
    obtain ⟨-, -, messages, counted⟩ := traced.returned result returned
    rw [← counted]
    refine ⟨And.left, fun steps => ⟨steps, messages.trans ?_⟩⟩
    exact (Nat.add_le_add_right steps 10).trans (by decide)
  refine ⟨exactly, fun fits => exactly.mpr ⟨fun k _ => fits.1 k, fun result returned => ?_⟩⟩
  obtain ⟨solves, reviews, -, -⟩ := traced.returned result returned
  exact (WorkflowScript.stepCount_mono solves reviews).trans fits.2

section lost

/-- A run that searches these tasks. A repeated search never answers; the cache does. -/
def searchedRun (found : List Bool) : Ending × Workflow (Option Nat) :=
  cafeService.plan
    { cafeScript with
      firstSolve := { cafeSolve with
        search := { found := found, cached := fun _ _ => true } } }
    {} (cafeService.unstarted 0 [])

/-- The search of twenty-one tasks raises in its audit; a plan after ten failed searches has a trace
of twenty-six steps. -/
theorem audit_loses_plan :
    (searchedRun (List.replicate 21 true)).1 = .raised .audit ∧
      ¬ TraceKept (searchedRun (List.replicate 21 true)) ∧
    (∃ result, (searchedRun (List.replicate 10 false)).1 = .returned result) ∧
      (searchedRun (List.replicate 10 false)).2.steps.length = 26 ∧
      ¬ TraceKept (searchedRun (List.replicate 10 false)) := by
  have many : (searchedRun (List.replicate 21 true)).1 = .raised .audit ∧
      21 ∈ (searchedRun (List.replicate 21 true)).2.recorded := by decide +kernel
  have failing : (searchedRun (List.replicate 10 false)).1.returns = true ∧
      (searchedRun (List.replicate 10 false)).2.steps.length = 26 := by decide +kernel
  obtain ⟨result, returned⟩ := Ending.exists_of_returns failing.1
  refine ⟨many.1, not_kept_of_recorded many.2 (by decide), ⟨result, returned⟩, failing.2, ?_⟩
  exact not_kept_of_steps returned failing.2 (by decide)

end lost
end MapGo.Planning
