import MapGo.Transition

/-! Durable runs of the dynamic replanning workflow. An attempt carries the task graph in memory and
commits it at every transition; the next attempt reads the task rows back and then runs the whole
straight-line program, whose transitions alone look at what has succeeded. -/
namespace MapGo.Patch

open Transition

inductive WorkflowNode where
  | eventIngest | supervisorDispatch | replanner | deterministicReplan | deterministicReview
  | finalAnswer
  deriving DecidableEq, Repr

namespace WorkflowNode

def all : List WorkflowNode :=
  [.eventIngest, .supervisorDispatch, .replanner, .deterministicReplan, .deterministicReview,
    .finalAnswer]

def dependsOn : WorkflowNode → List WorkflowNode
  | .eventIngest => []
  | .supervisorDispatch => [.eventIngest]
  | .replanner => [.supervisorDispatch]
  | .deterministicReplan => [.replanner]
  | .deterministicReview => [.deterministicReplan]
  | .finalAnswer => [.deterministicReview]

def index : WorkflowNode → Nat
  | .eventIngest => 0
  | .supervisorDispatch => 1
  | .replanner => 2
  | .deterministicReplan => 3
  | .deterministicReview => 4
  | .finalAnswer => 5

theorem mem_all (node : WorkflowNode) : node ∈ all := by cases node <;> decide

theorem index_injective : Function.Injective index := by
  intro a b same
  cases a <;> cases b <;> first | rfl | contradiction

theorem index_dependsOn {node other : WorkflowNode} (needed : other ∈ node.dependsOn) :
    other.index < node.index := by
  cases node <;> simp [dependsOn] at needed <;> subst needed <;> decide

end WorkflowNode

inductive NodeStatus where
  | pending | running | retrying | succeeded | failed | blocked | skipped
  deriving DecidableEq, Repr

/-- A step of the execution plan, and its row in `agent_workflow_tasks`. -/
structure NodeTask where
  status : NodeStatus := .pending
  attemptCount : Nat := 0
  deriving DecidableEq, Repr

abbrev NodeGraph := WorkflowNode → NodeTask

inductive WorkflowStatus where
  | running | failed | blocked | succeeded
  deriving DecidableEq, Repr

structure WorkflowRow where
  status : WorkflowStatus := .running
  tasks : WorkflowNode → Option NodeTask := fun _ => none

def WorkflowRow.succeeded (row : WorkflowRow) (node : WorkflowNode) : Bool :=
  (row.tasks node).any fun task => task.status = .succeeded

/-- The program of `_execute` and what `run` does behind it. -/
inductive Instruction where
  /-- `_transition(…, "running", begin=True)` -/
  | enter (node : WorkflowNode)
  /-- The message, agent or solver of the node. -/
  | execute (node : WorkflowNode)
  /-- `_transition` to the outcome of the node -/
  | leave (node : WorkflowNode)
  /-- The last checkpoint of the trace. -/
  | finish
  /-- `persist_agent_workflow` -/
  | persist
  /-- An automatic application and the return. -/
  | answer
  deriving DecidableEq, Repr

def program : List Instruction :=
  WorkflowNode.all.flatMap (fun node => [.enter node, .execute node, .leave node]) ++
    [.finish, .persist, .answer]

/-- A call of `run` on a workflow, with its trace. -/
structure WorkflowAttempt where
  workflow : Nat
  graph : NodeGraph
  status : WorkflowStatus := .running
  position : Nat := 0
  /-- The verdict of its review. -/
  blocked : Bool := false
  ended : Bool := false

/-- A node was executed while its workflow had these rows. -/
structure NodeExecution where
  node : WorkflowNode
  row : WorkflowRow

/-- The workflows of one trigger. -/
structure DynamicWorkflows where
  workflows : List WorkflowRow := []
  attempts : List WorkflowAttempt := []
  /-- History: the executions of nodes. -/
  executed : List NodeExecution := []

inductive WorkflowAction where
  /-- `resume_or_start` -/
  | resume
  /-- It stops after its first commit. -/
  | resumeCut
  /-- `blocks` is the verdict of a review. -/
  | advance (attempt : Nat) (blocks : Bool)
  /-- An exception; `reached` says that the instruction has taken effect in memory, `saved` that the
  checkpoint of the handler is committed. -/
  | raise (attempt : Nat) (blocks reached saved : Bool)
  | crash (attempt : Nat)

/-- The loop over the steps of a resumed plan. -/
def restore (tasks : WorkflowNode → Option NodeTask) :
    List WorkflowNode → Option WorkflowNode → NodeGraph → NodeGraph
  | [], _, graph => graph
  | node :: rest, resumeFrom, graph =>
      let step := (tasks node).getD (graph node)
      if resumeFrom.isNone ∧ step.status ∈ [.pending, .running, .retrying, .failed, .blocked] then
        restore tasks rest (some node)
          (Function.update graph node { step with status := .retrying })
      else if resumeFrom.isSome ∧ step.status ∈ [.blocked, .failed, .retrying] then
        restore tasks rest resumeFrom
          (Function.update graph node { step with status := .pending })
      else restore tasks rest resumeFrom (Function.update graph node step)

namespace WorkflowAttempt

def instruction (attempt : WorkflowAttempt) : Option Instruction :=
  if attempt.ended then none else program[attempt.position]?

/-- `_transition`: a node that has succeeded stays as it is. -/
def transition (attempt : WorkflowAttempt) (node : WorkflowNode) (status : NodeStatus)
    (begins : Bool) : WorkflowAttempt :=
  let step := attempt.graph node
  if step.status = .succeeded then attempt
  else
    let entered : NodeTask := ⟨status, step.attemptCount + if begins then 1 else 0⟩
    { attempt with graph := Function.update attempt.graph node entered }

/-- What an instruction does to the trace; `blocks` is the verdict of a review. -/
def perform (attempt : WorkflowAttempt) (blocks : Bool) : Instruction → WorkflowAttempt
  | .enter node => attempt.transition node .running true
  | .execute .deterministicReview => { attempt with blocked := blocks }
  | .leave .deterministicReview => attempt.transition .deterministicReview
      (if attempt.blocked then .blocked else .succeeded) false
  | .leave node => attempt.transition node .succeeded false
  | .finish => { attempt with status := if attempt.blocked then .blocked else .succeeded }
  | .execute _ | .persist | .answer => attempt

/-- The trace as `DurableWorkflowCheckpointStore.fail` leaves it. -/
def fail (attempt : WorkflowAttempt) : WorkflowAttempt :=
  { attempt with
    status := .failed
    graph := fun node =>
      let step := attempt.graph node
      match step.status with
      | .running | .retrying => { step with status := .failed }
      | .pending => { step with status := .blocked }
      | _ => step }

def next (attempt : WorkflowAttempt) : WorkflowAttempt :=
  { attempt with position := attempt.position + 1 }

def stop (attempt : WorkflowAttempt) : WorkflowAttempt := { attempt with ended := true }

/-- The rows that `checkpoint` writes. -/
def row (attempt : WorkflowAttempt) : WorkflowRow :=
  ⟨attempt.status, fun node => some (attempt.graph node)⟩

end WorkflowAttempt

namespace DynamicWorkflows

def set (s : DynamicWorkflows) (index : Nat) (attempt : WorkflowAttempt) : DynamicWorkflows :=
  { s with attempts := s.attempts.set index attempt }

def checkpoint (s : DynamicWorkflows) (attempt : WorkflowAttempt) : DynamicWorkflows :=
  { s with workflows := s.workflows.set attempt.workflow attempt.row }

/-- The latest workflow that is running or failed. -/
def resumable (s : DynamicWorkflows) : Option Nat :=
  (List.range s.workflows.length).reverse.find? fun index =>
    (s.workflows[index]?).any fun row => row.status = .running ∨ row.status = .failed

/-- The message, agent or solver runs. -/
def record (s : DynamicWorkflows) (attempt : WorkflowAttempt) : Instruction → DynamicWorkflows
  | .execute node => { s with
      executed := s.executed ++
        (s.workflows[attempt.workflow]?.map fun row => ⟨node, row⟩).toList }
  | _ => s

/-- A transition commits unless the node has succeeded; the ends of a run commit always. -/
def commits (attempt : WorkflowAttempt) : Instruction → Bool
  | .enter node | .leave node => (attempt.graph node).status ≠ .succeeded
  | .finish | .persist => true
  | .execute _ | .answer => false

def step (s : DynamicWorkflows) : WorkflowAction → Option DynamicWorkflows
  | .resume =>
      match s.resumable with
      | none => some { s with
          workflows := s.workflows ++ [{}]
          attempts := s.attempts ++ [{ workflow := s.workflows.length, graph := fun _ => {} }] }
      | some index => (s.workflows[index]?).map fun row =>
          let attempt : WorkflowAttempt :=
            { workflow := index
              graph := restore row.tasks WorkflowNode.all none fun _ => {} }
          { s.checkpoint attempt with attempts := s.attempts ++ [attempt] }
  | .resumeCut =>
      match s.resumable with
      | none => some { s with workflows := s.workflows ++ [{}] }
      | some index => (s.workflows[index]?).map fun row =>
          { s with workflows := s.workflows.set index { row with status := .running } }
  | .advance index blocks => do
      let attempt ← s.attempts[index]?
      let instruction ← attempt.instruction
      let after := attempt.perform blocks instruction
      let s := s.record attempt instruction
      let s := if commits attempt instruction then s.checkpoint after else s
      some (s.set index (if instruction = .answer then after.stop else after.next))
  | .raise index blocks reached saved => do
      let attempt ← s.attempts[index]?
      let instruction ← attempt.instruction
      let s := if reached then s.record attempt instruction else s
      let after := (if reached then attempt.perform blocks instruction else attempt).fail
      let s := if saved then s.checkpoint after else s
      some (s.set index after.stop)
  | .crash index => do
      let attempt ← s.attempts[index]?
      if attempt.ended then none else some (s.set index attempt.stop)

def machine : Machine DynamicWorkflows WorkflowAction where
  initial s := s = {}
  step := step

/-- The verdict is that of a review which the attempt is about to make. -/
def reviewBlocked (s : DynamicWorkflows) (index : Nat) (blocks : Bool) : Bool :=
  blocks && (s.attempts[index]?).any fun attempt =>
    attempt.instruction = some (.execute .deterministicReview)

/-- No execution of a node whose row has succeeded, or before a dependency has. -/
def Unrepeated (s : DynamicWorkflows) : Prop :=
  ∀ execution ∈ s.executed, execution.row.succeeded execution.node = false ∧
    ∀ other ∈ execution.node.dependsOn, execution.row.succeeded other = true

instance (s : DynamicWorkflows) : Decidable s.Unrepeated :=
  inferInstanceAs (Decidable (∀ _ ∈ _, _ ∧ ∀ _ ∈ _, _))

/-- A resumption finds a workflow on which nothing has succeeded and nobody works, and no review
blocks its patch. -/
def resumesFresh (s : DynamicWorkflows) : WorkflowAction → Bool
  | .resume => s.resumable.all fun index =>
      (s.workflows[index]?).all (fun row => WorkflowNode.all.all fun node => !row.succeeded node) &&
        s.attempts.all fun attempt => attempt.ended || attempt.workflow != index
  | .advance index blocks | .raise index blocks _ _ => !s.reviewBlocked index blocks
  | _ => true

end DynamicWorkflows

/-! ### Positions in the program -/

/-- Where the instruction stands. -/
def Instruction.place : Instruction → Nat
  | .enter node => 3 * node.index
  | .execute node => 3 * node.index + 1
  | .leave node => 3 * node.index + 2
  | .finish => 18
  | .persist => 19
  | .answer => 20

theorem program_place : ∀ position < program.length, ∀ instruction ∈ program,
    program[position]? = some instruction → position = instruction.place := by decide

/-- Exactly the nodes that a position has left behind. -/
def Behind (position : Nat) (done : WorkflowNode → Bool) : Prop :=
  ∀ node, done node = true ↔ 3 * node.index + 2 < position

theorem WorkflowNode.index_lt (node : WorkflowNode) : node.index < 6 := by cases node <;> decide

/-- A position moves on from an instruction that leaves no node. -/
theorem Behind.skip {done : WorkflowNode → Bool} {instruction : Instruction}
    (behind : Behind instruction.place done) (stays : ∀ node, instruction ≠ .leave node) :
    Behind (instruction.place + 1) done := by
  intro other
  rw [behind other]
  have bound := other.index_lt
  cases instruction with
  | leave node => exact absurd rfl (stays node)
  | enter node | execute node => simp only [Instruction.place]; omega
  | finish | persist | answer => simp only [Instruction.place]; omega

namespace WorkflowAttempt
variable {attempt : WorkflowAttempt} {node other : WorkflowNode} {instruction : Instruction}

def succeeded (attempt : WorkflowAttempt) (node : WorkflowNode) : Bool :=
  (attempt.graph node).status = .succeeded

theorem place_eq (current : attempt.instruction = some instruction) :
    attempt.ended = false ∧ attempt.position = instruction.place := by
  unfold WorkflowAttempt.instruction at current
  split at current
  · contradiction
  next live =>
    obtain ⟨inside, -⟩ := List.getElem?_eq_some_iff.mp current
    exact ⟨by simpa using live,
      program_place _ inside _ (List.mem_of_getElem? current) current⟩

@[simp] theorem row_succeeded : attempt.row.succeeded node = attempt.succeeded node := rfl

theorem succeeded_transition {status : NodeStatus} {begins : Bool}
    (fresh : attempt.succeeded node = false) :
    (attempt.transition node status begins).succeeded other =
      if other = node then decide (status = .succeeded) else attempt.succeeded other := by
  have unfinished : (attempt.graph node).status ≠ .succeeded := of_decide_eq_false fresh
  simp only [transition, unfinished, if_false, succeeded]
  by_cases same : other = node
  · subst same
    simp
  · rw [Function.update_of_ne same, if_neg same]

@[simp] theorem fail_succeeded : attempt.fail.succeeded node = attempt.succeeded node := by
  cases found : (attempt.graph node).status <;> simp [fail, succeeded, found]

theorem behind_perform {blocks : Bool} (behind : Behind instruction.place attempt.succeeded)
    (approved : attempt.blocked = false) :
    Behind (instruction.place + 1) (attempt.perform blocks instruction).succeeded := by
  cases instruction with
  | enter node =>
      have fresh : attempt.succeeded node = false := by
        rw [Bool.eq_false_iff, ne_eq, behind node]
        simp only [Instruction.place]
        omega
      intro other
      rw [perform, succeeded_transition fresh]
      split
      next same =>
        subst same
        simp [Instruction.place]
      next => exact (Behind.skip behind nofun) other
  | leave node =>
      have fresh : attempt.succeeded node = false := by
        rw [Bool.eq_false_iff, ne_eq, behind node]
        simp only [Instruction.place]
        omega
      have left : attempt.perform blocks (.leave node) =
          attempt.transition node .succeeded false := by
        cases node <;> simp [perform, approved]
      intro other
      rw [left, succeeded_transition fresh]
      split
      next same =>
        subst same
        simp [Instruction.place]
      next apart =>
        have different : other.index ≠ node.index := fun same =>
          apart (WorkflowNode.index_injective same)
        rw [behind other]
        simp only [Instruction.place]
        omega
  | execute node =>
      have kept : (attempt.perform blocks (.execute node)).succeeded = attempt.succeeded := by
        cases node <;> rfl
      rw [kept]
      exact Behind.skip behind nofun
  | finish | persist | answer => exact Behind.skip behind nofun

end WorkflowAttempt

namespace DynamicWorkflows

/-- A live attempt and the rows of its workflow agree on what its program has left behind. -/
structure Synced (s : DynamicWorkflows) (attempt : WorkflowAttempt) : Prop where
  approved : attempt.blocked = false
  graph : Behind attempt.position attempt.succeeded
  rows : ∃ row, s.workflows[attempt.workflow]? = some row ∧ Behind attempt.position row.succeeded

structure Fresh (s : DynamicWorkflows) : Prop where
  synced : ∀ attempt ∈ s.attempts, attempt.ended = false → s.Synced attempt
  alone : ∀ (i j : Nat) (a b : WorkflowAttempt), s.attempts[i]? = some a →
    s.attempts[j]? = some b → a.ended = false → b.ended = false → a.workflow = b.workflow → i = j
  begun : ∀ row ∈ s.workflows, ∃ count, ∀ node : WorkflowNode,
    row.succeeded node = true ↔ node.index < count
  unrepeated : s.Unrepeated

theorem Behind.begun {position : Nat} {done : WorkflowNode → Bool} (behind : Behind position done) :
    ∃ count, ∀ node, done node = true ↔ node.index < count := by
  refine ⟨position / 3, fun node => ?_⟩
  rw [behind node]
  omega

variable {s t : DynamicWorkflows}

@[simp] theorem record_workflows {attempt : WorkflowAttempt} {instruction : Instruction} :
    (s.record attempt instruction).workflows = s.workflows := by
  cases instruction <;> rfl

@[simp] theorem record_attempts {attempt : WorkflowAttempt} {instruction : Instruction} :
    (s.record attempt instruction).attempts = s.attempts := by
  cases instruction <;> rfl

/-- A synced attempt executes a node that has not succeeded, behind its dependencies. -/
theorem Synced.record {attempt : WorkflowAttempt} {instruction : Instruction}
    (synced : s.Synced attempt) (place : attempt.position = instruction.place)
    (unrepeated : s.Unrepeated) : (s.record attempt instruction).Unrepeated := by
  cases instruction with
  | execute node =>
      obtain ⟨row, found, behind⟩ := synced.rows
      rw [place] at behind
      intro execution member
      simp only [DynamicWorkflows.record, found, Option.map_some, Option.toList_some] at member
      obtain before | new := List.mem_append.mp member
      · exact unrepeated execution before
      · obtain rfl := List.mem_singleton.mp new
        constructor
        · rw [Bool.eq_false_iff, ne_eq, behind node]
          simp only [Instruction.place]
          omega
        · intro other needed
          have below : other.index < node.index := WorkflowNode.index_dependsOn needed
          rw [behind other]
          simp only [Instruction.place]
          omega
  | _ => exact unrepeated

/-- The rows of a workflow are written by the one attempt that works on it. -/
theorem Fresh.write (fresh : s.Fresh) {index : Nat} {old : WorkflowAttempt} (new : WorkflowAttempt)
    (found : s.attempts[index]? = some old) (live : old.ended = false)
    (same : new.workflow = old.workflow)
    (workflows : t.workflows = s.workflows ∨ t.workflows = s.workflows.set old.workflow new.row)
    (attempts : t.attempts = s.attempts.set index new)
    (synced : new.ended = false → t.Synced new)
    (begun : ∃ count, ∀ node : WorkflowNode, new.succeeded node = true ↔ node.index < count)
    (unrepeated : t.Unrepeated) : t.Fresh := by
  have other {i : Nat} {a : WorkflowAttempt} (at_index : t.attempts[i]? = some a)
      (apart : i ≠ index) : s.attempts[i]? = some a := by
    rwa [attempts, List.getElem?_set_ne (Ne.symm apart)] at at_index
  have here {a : WorkflowAttempt} (at_index : t.attempts[index]? = some a) : a = new := by
    obtain ⟨inside, -⟩ := List.getElem?_eq_some_iff.mp found
    rw [attempts, List.getElem?_set_self inside] at at_index
    exact (Option.some.inj at_index).symm
  refine ⟨?_, ?_, ?_, unrepeated⟩
  · intro a member alive
    obtain ⟨i, at_index⟩ := List.getElem?_of_mem member
    by_cases apart : i = index
    · subst apart
      obtain rfl := here at_index
      exact synced alive
    · have before := other at_index apart
      have kept := fresh.synced a (List.mem_of_getElem? before) alive
      obtain ⟨row, stored, behind⟩ := kept.rows
      refine ⟨kept.approved, kept.graph, row, ?_, behind⟩
      obtain unchanged | written := workflows
      · rwa [unchanged]
      · have different : old.workflow ≠ a.workflow := fun same =>
          apart (fresh.alone i index a old before found alive live same.symm)
        rwa [written, List.getElem?_set_ne different]
  · intro i j a b at_i at_j alive_a alive_b shared
    by_cases first : i = index
    · subst first
      obtain rfl := here at_i
      by_contra apart
      refine apart (fresh.alone i j old b found (other at_j (Ne.symm apart)) live alive_b ?_)
      rw [← same, shared]
    · by_cases second : j = index
      · subst second
        obtain rfl := here at_j
        refine fresh.alone i j a old (other at_i first) found alive_a live ?_
        rw [← same, shared]
      · exact fresh.alone i j a b (other at_i first) (other at_j second) alive_a alive_b shared
  · intro row member
    obtain unchanged | written := workflows
    · rw [unchanged] at member
      exact fresh.begun row member
    · rw [written] at member
      obtain before | rfl := List.mem_or_eq_of_mem_set member
      · exact fresh.begun row before
      · exact begun

theorem perform_workflow {attempt : WorkflowAttempt} {blocks : Bool} {instruction : Instruction} :
    (attempt.perform blocks instruction).workflow = attempt.workflow := by
  unfold WorkflowAttempt.perform WorkflowAttempt.transition
  split <;> first | rfl | (dsimp only; split <;> rfl)

theorem perform_position {attempt : WorkflowAttempt} {blocks : Bool} {instruction : Instruction} :
    (attempt.perform blocks instruction).position = attempt.position := by
  unfold WorkflowAttempt.perform WorkflowAttempt.transition
  split <;> first | rfl | (dsimp only; split <;> rfl)

theorem perform_blocked {attempt : WorkflowAttempt} {blocks : Bool} {instruction : Instruction}
    (approved : attempt.blocked = false)
    (approves : instruction = .execute .deterministicReview → blocks = false) :
    (attempt.perform blocks instruction).blocked = false := by
  unfold WorkflowAttempt.perform WorkflowAttempt.transition
  split
  case h_2 => exact approves rfl
  all_goals first | exact approved | (dsimp only; split <;> exact approved)

theorem approves_of_resumesFresh {index : Nat} {attempt : WorkflowAttempt} {blocks : Bool}
    {instruction : Instruction} (kept : s.reviewBlocked index blocks = false)
    (found : s.attempts[index]? = some attempt)
    (current : attempt.instruction = some instruction) :
    instruction = .execute .deterministicReview → blocks = false := by
  rintro rfl
  simpa [reviewBlocked, found, current] using kept

/-- A live attempt commits at each transition. -/
theorem not_leaves_of_not_commits {attempt : WorkflowAttempt} {instruction : Instruction}
    (graph : Behind instruction.place attempt.succeeded)
    (silent : commits attempt instruction = false) (node : WorkflowNode) :
    instruction ≠ .leave node := by
  rintro rfl
  have succeeded : attempt.succeeded node = true := by
    simpa [commits, WorkflowAttempt.succeeded] using silent
  have early := (graph node).mp succeeded
  simp only [Instruction.place] at early
  omega

theorem Fresh.advance (fresh : s.Fresh) {index : Nat} {blocks : Bool}
    (kept : s.reviewBlocked index blocks = false)
    (stepped : s.step (.advance index blocks) = some t) : t.Fresh := by
  obtain ⟨attempt, found, stepped⟩ := Option.bind_eq_some_iff.mp stepped
  obtain ⟨instruction, current, stepped⟩ := Option.bind_eq_some_iff.mp stepped
  obtain ⟨live, place⟩ := WorkflowAttempt.place_eq current
  have synced := fresh.synced attempt (List.mem_of_getElem? found) live
  obtain ⟨row, stored, behind⟩ := synced.rows
  obtain ⟨inside, -⟩ := List.getElem?_eq_some_iff.mp stored
  have graph := synced.graph
  rw [place] at graph behind
  have approves := approves_of_resumesFresh kept found current
  have after : Behind (instruction.place + 1) (attempt.perform blocks instruction).succeeded :=
    WorkflowAttempt.behind_perform graph synced.approved
  have begun := Behind.begun after
  have unrepeated := synced.record place fresh.unrepeated
  cases stepped
  refine fresh.write (if instruction = .answer then
    (attempt.perform blocks instruction).stop else (attempt.perform blocks instruction).next)
    found live ?_ ?_ ?_ ?_ ?_ ?_
  · split <;> exact perform_workflow
  · split
    · right
      simp only [set, checkpoint, record_workflows, perform_workflow]
      split <;> rfl
    · exact .inl record_workflows
  · split
    · simp only [set, checkpoint, record_attempts]
    · simp only [set, record_attempts]
  · intro alive
    split at alive
    · contradiction
    next goes =>
      rw [if_neg goes]
      have moved : (attempt.perform blocks instruction).next.position = instruction.place + 1 := by
        rw [WorkflowAttempt.next, perform_position, place]
      refine ⟨perform_blocked synced.approved approves, ?_, ?_⟩
      · rw [moved]
        exact after
      · rw [moved]
        split
        next loud =>
          refine ⟨(attempt.perform blocks instruction).row, ?_, after⟩
          simp only [set, checkpoint, record_workflows, WorkflowAttempt.next, perform_workflow]
          exact List.getElem?_set_self inside
        next silent =>
          refine ⟨row, ?_, Behind.skip behind ?_⟩
          · simpa only [set, record_workflows, WorkflowAttempt.next, perform_workflow] using stored
          · exact not_leaves_of_not_commits graph (by simpa using silent)
  · split <;> exact begun
  · split <;> exact unrepeated

theorem Fresh.raise (fresh : s.Fresh) {index : Nat} {blocks reached saved : Bool}
    (stepped : s.step (.raise index blocks reached saved) = some t) : t.Fresh := by
  obtain ⟨attempt, found, stepped⟩ := Option.bind_eq_some_iff.mp stepped
  obtain ⟨instruction, current, stepped⟩ := Option.bind_eq_some_iff.mp stepped
  obtain ⟨live, place⟩ := WorkflowAttempt.place_eq current
  have synced := fresh.synced attempt (List.mem_of_getElem? found) live
  have graph := synced.graph
  rw [place] at graph
  have after : Behind (instruction.place + 1) (attempt.perform blocks instruction).succeeded :=
    WorkflowAttempt.behind_perform graph synced.approved
  have begun : ∃ count, ∀ node : WorkflowNode,
      (if reached then attempt.perform blocks instruction else attempt).fail.succeeded node = true ↔
        node.index < count := by
    simp only [WorkflowAttempt.fail_succeeded]
    split
    · exact Behind.begun after
    · exact Behind.begun graph
  have same : (if reached then attempt.perform blocks instruction else attempt).fail.workflow =
      attempt.workflow := by
    split
    · exact perform_workflow
    · rfl
  have unrepeated : (if reached then s.record attempt instruction else s).Unrepeated := by
    split
    · exact synced.record place fresh.unrepeated
    · exact fresh.unrepeated
  have workflows : (if reached then s.record attempt instruction else s).workflows =
      s.workflows := by
    split
    · exact record_workflows
    · rfl
  have attempts : (if reached then s.record attempt instruction else s).attempts =
      s.attempts := by
    split
    · exact record_attempts
    · rfl
  cases stepped
  refine fresh.write ((if reached then attempt.perform blocks instruction
    else attempt).fail.stop) found live same ?_ ?_ nofun begun ?_
  · split
    · right
      simp only [set, checkpoint, workflows, same]
      rfl
    · exact .inl workflows
  · split
    · simp only [set, checkpoint, attempts]
    · simp only [set, attempts]
  · split
    · exact unrepeated
    · exact unrepeated

theorem Fresh.crash (fresh : s.Fresh) {index : Nat}
    (stepped : s.step (.crash index) = some t) : t.Fresh := by
  obtain ⟨attempt, found, stepped⟩ := Option.bind_eq_some_iff.mp stepped
  split at stepped
  · contradiction
  next live =>
    cases stepped
    have alive : attempt.ended = false := by simpa using live
    have synced := fresh.synced attempt (List.mem_of_getElem? found) alive
    exact fresh.write attempt.stop found alive rfl (.inl rfl) rfl nofun
      (Behind.begun synced.graph) fresh.unrepeated

theorem restore_succeeded {tasks : WorkflowNode → Option NodeTask} {nodes : List WorkflowNode}
    {resumeFrom : Option WorkflowNode} {graph : NodeGraph}
    (rows : ∀ node task, tasks node = some task → task.status ≠ .succeeded)
    (unstarted : ∀ node, (graph node).status ≠ .succeeded) (node : WorkflowNode) :
    (restore tasks nodes resumeFrom graph node).status ≠ .succeeded := by
  induction nodes generalizing resumeFrom graph with
  | nil => exact unstarted node
  | cons first rest ih =>
      have step : ((tasks first).getD (graph first)).status ≠ .succeeded := by
        cases found : tasks first with
        | none => exact unstarted first
        | some task => exact rows first task found
      have update {task : NodeTask} (fits : task.status ≠ .succeeded) (other : WorkflowNode) :
          (Function.update graph first task other).status ≠ .succeeded := by
        rw [Function.update_apply]
        split
        · exact fits
        · exact unstarted other
      unfold restore
      dsimp only
      split
      · exact ih (update nofun)
      · split
        · exact ih (update nofun)
        · exact ih (update step)

theorem restore_of_not_mem {tasks : WorkflowNode → Option NodeTask} {nodes : List WorkflowNode}
    {resumeFrom : Option WorkflowNode} {graph : NodeGraph} {node : WorkflowNode}
    (absent : node ∉ nodes) : restore tasks nodes resumeFrom graph node = graph node := by
  induction nodes generalizing resumeFrom graph with
  | nil => rfl
  | cons first rest ih =>
      obtain ⟨apart, later⟩ := not_or.mp (mt List.mem_cons.mpr absent)
      unfold restore
      dsimp only
      split
      · rw [ih later, Function.update_of_ne apart]
      · split
        · rw [ih later, Function.update_of_ne apart]
        · rw [ih later, Function.update_of_ne apart]

/-- A new attempt joins those that work on other workflows. -/
theorem Fresh.join (fresh : s.Fresh) (new : WorkflowAttempt)
    (workflows : ∀ index : Nat, index ≠ new.workflow → ∀ row, s.workflows[index]? = some row →
      t.workflows[index]? = some row)
    (attempts : t.attempts = s.attempts ++ [new]) (synced : t.Synced new)
    (idle : ∀ attempt ∈ s.attempts, attempt.ended = false → attempt.workflow ≠ new.workflow)
    (begun : ∀ row ∈ t.workflows, ∃ count, ∀ node : WorkflowNode,
      row.succeeded node = true ↔ node.index < count)
    (executed : t.executed = s.executed) : t.Fresh := by
  have place {i : Nat} {a : WorkflowAttempt} (at_index : t.attempts[i]? = some a) :
      s.attempts[i]? = some a ∨ i = s.attempts.length ∧ a = new := by
    rw [attempts, List.getElem?_append] at at_index
    split at at_index
    · exact .inl at_index
    next beyond =>
      obtain ⟨inside, same⟩ := List.getElem?_eq_some_iff.mp at_index
      have first : i - s.attempts.length = 0 := by simpa using inside
      exact .inr ⟨by omega, by simpa [first] using same.symm⟩
  refine ⟨?_, ?_, begun, ?_⟩
  · intro a member alive
    rw [attempts] at member
    obtain before | last := List.mem_append.mp member
    · obtain ⟨approved, graph, row, stored, behind⟩ := fresh.synced a before alive
      exact ⟨approved, graph, row, workflows _ (idle a before alive) row stored, behind⟩
    · obtain rfl := List.mem_singleton.mp last
      exact synced
  · intro i j a b at_i at_j alive_a alive_b shared
    obtain before_i | ⟨rfl, rfl⟩ := place at_i
    · obtain before_j | ⟨rfl, rfl⟩ := place at_j
      · exact fresh.alone i j a b before_i before_j alive_a alive_b shared
      · exact absurd shared (idle a (List.mem_of_getElem? before_i) alive_a)
    · obtain before_j | ⟨rfl, rfl⟩ := place at_j
      · exact absurd shared.symm (idle b (List.mem_of_getElem? before_j) alive_b)
      · rfl
  · rw [Unrepeated, executed]
    exact fresh.unrepeated

theorem behind_zero {done : WorkflowNode → Bool} (none : ∀ node, done node = false) :
    Behind 0 done := by
  intro node
  rw [none node]
  simp

theorem Fresh.resume (fresh : s.Fresh) (kept : s.resumesFresh .resume = true)
    (stepped : s.step .resume = some t) : t.Fresh := by
  cases found : s.resumable with
  | none =>
    simp only [DynamicWorkflows.step, found] at stepped
    cases stepped
    have started : Behind 0 fun node => WorkflowRow.succeeded {} node := behind_zero fun _ => rfl
    refine fresh.join ({ workflow := s.workflows.length, graph := fun _ => {} })
      ?_ rfl ⟨rfl, behind_zero fun _ => rfl, {}, ?_, started⟩ ?_ ?_ rfl
    · intro index _ row stored
      obtain ⟨inside, -⟩ := List.getElem?_eq_some_iff.mp stored
      rwa [List.getElem?_append_left inside]
    · exact List.getElem?_concat_length
    · intro attempt member alive same
      obtain ⟨-, -, row, stored, -⟩ := fresh.synced attempt member alive
      obtain ⟨inside, -⟩ := List.getElem?_eq_some_iff.mp stored
      exact absurd same (Nat.ne_of_lt inside)
    · intro row member
      obtain before | last := List.mem_append.mp member
      · exact fresh.begun row before
      · obtain rfl := List.mem_singleton.mp last
        exact Behind.begun started
  | some index =>
    simp only [DynamicWorkflows.step, found] at stepped
    obtain ⟨row, stored, rfl⟩ := Option.map_eq_some_iff.mp stepped
    obtain ⟨inside, -⟩ := List.getElem?_eq_some_iff.mp stored
    simp only [resumesFresh, found, stored, Option.all_some, Bool.and_eq_true, List.all_eq_true,
      Bool.not_eq_true', Bool.or_eq_true, bne_iff_ne, ne_eq] at kept
    obtain ⟨unfinished, idle⟩ := kept
    have rows : ∀ node task, row.tasks node = some task → task.status ≠ .succeeded := by
      intro node task held
      simpa [WorkflowRow.succeeded, held] using unfinished node (WorkflowNode.mem_all node)
    let new : WorkflowAttempt :=
      { workflow := index, graph := restore row.tasks WorkflowNode.all none fun _ => {} }
    have started : Behind 0 new.succeeded :=
      behind_zero fun node => decide_eq_false (restore_succeeded rows (fun _ => by decide) node)
    refine fresh.join new ?_ rfl ⟨rfl, started, new.row, ?_, started⟩ ?_ ?_ rfl
    · intro other apart row' stored'
      exact (List.getElem?_set_ne (Ne.symm apart)).trans stored'
    · exact List.getElem?_set_self inside
    · intro attempt member alive
      obtain done | apart := idle attempt member
      · exact absurd (alive.symm.trans done) Bool.false_ne_true
      · exact apart
    · intro row' member
      obtain before | rfl := List.mem_or_eq_of_mem_set member
      · exact fresh.begun row' before
      · exact Behind.begun started

theorem Fresh.resumeCut (fresh : s.Fresh) (stepped : s.step .resumeCut = some t) : t.Fresh := by
  cases found : s.resumable with
  | none =>
    simp only [DynamicWorkflows.step, found] at stepped
    cases stepped
    refine ⟨?_, fresh.alone, ?_, fresh.unrepeated⟩
    · intro a member alive
      obtain ⟨approved, graph, row, stored, behind⟩ := fresh.synced a member alive
      obtain ⟨inside, -⟩ := List.getElem?_eq_some_iff.mp stored
      exact ⟨approved, graph, row, (List.getElem?_append_left inside).trans stored, behind⟩
    · intro row member
      obtain before | last := List.mem_append.mp member
      · exact fresh.begun row before
      · obtain rfl := List.mem_singleton.mp last
        exact Behind.begun (behind_zero fun _ => rfl)
  | some index =>
    simp only [DynamicWorkflows.step, found] at stepped
    obtain ⟨old, stored, rfl⟩ := Option.map_eq_some_iff.mp stepped
    obtain ⟨inside, -⟩ := List.getElem?_eq_some_iff.mp stored
    refine ⟨?_, fresh.alone, ?_, fresh.unrepeated⟩
    · intro a member alive
      obtain ⟨approved, graph, row, held, behind⟩ := fresh.synced a member alive
      by_cases same : index = a.workflow
      · subst same
        obtain rfl := Option.some.inj (stored.symm.trans held)
        exact ⟨approved, graph, _, List.getElem?_set_self inside, behind⟩
      · exact ⟨approved, graph, row, (List.getElem?_set_ne same).trans held, behind⟩
    · intro row member
      obtain before | rfl := List.mem_or_eq_of_mem_set member
      · exact fresh.begun row before
      · exact fresh.begun old (List.mem_of_getElem? stored)

theorem Fresh.step {action : WorkflowAction} (fresh : s.Fresh)
    (kept : s.resumesFresh action = true) (stepped : s.step action = some t) : t.Fresh := by
  cases action with
  | resume => exact fresh.resume kept stepped
  | resumeCut => exact fresh.resumeCut stepped
  | advance index blocks => exact fresh.advance (by simpa [resumesFresh] using kept) stepped
  | raise index blocks reached saved => exact fresh.raise stepped
  | crash index => exact fresh.crash stepped

theorem fresh_reachable
    (reached : (machine.restrict fun s action => s.resumesFresh action = true).Reachable s) :
    s.Fresh := by
  refine reached.invariant ?_ fun {before action after} fresh stepped => ?_
  · rintro s rfl
    exact ⟨nofun, nofun, nofun, nofun⟩
  · obtain ⟨kept, stepped⟩ := Machine.restrict_step.mp stepped
    exact Fresh.step fresh kept stepped

theorem advance_eq {index : Nat} {attempt : WorkflowAttempt} {blocks : Bool}
    {instruction : Instruction} (found : s.attempts[index]? = some attempt)
    (current : attempt.instruction = some instruction) :
    s.step (.advance index blocks) = some
      ((if commits attempt instruction then
          (s.record attempt instruction).checkpoint (attempt.perform blocks instruction)
        else s.record attempt instruction).set index
          (if instruction = .answer then (attempt.perform blocks instruction).stop
          else (attempt.perform blocks instruction).next)) := by
  simp [step, found, current]

/-- A node that has succeeded is entered without a commit, and executed all the same. -/
theorem reexecutes {index : Nat} (attempt : WorkflowAttempt) (row : WorkflowRow)
    (found : s.attempts[index]? = some attempt) (live : attempt.ended = false)
    (start : attempt.position = 0) (done : attempt.succeeded .eventIngest = true)
    (stored : s.workflows[attempt.workflow]? = some row)
    (succeeded : row.succeeded .eventIngest = true) :
    ∃ t, machine.run s [.advance index false, .advance index false] = some t ∧ ¬ t.Unrepeated := by
  obtain ⟨inside, -⟩ := List.getElem?_eq_some_iff.mp found
  have status : (attempt.graph .eventIngest).status = .succeeded := of_decide_eq_true done
  have enters : attempt.instruction = some (.enter .eventIngest) := by
    simp [WorkflowAttempt.instruction, live, start]
    rfl
  have executes : attempt.next.instruction = some (.execute .eventIngest) := by
    simp [WorkflowAttempt.instruction, WorkflowAttempt.next, live, start]
    rfl
  have first : s.step (.advance index false) = some (s.set index attempt.next) := by
    rw [advance_eq found enters]
    simp [record, commits, WorkflowAttempt.perform, WorkflowAttempt.transition, status]
  have moved : (s.set index attempt.next).attempts[index]? = some attempt.next :=
    List.getElem?_set_self inside
  let again : NodeExecution := ⟨.eventIngest, row⟩
  have second : (s.set index attempt.next).step (.advance index false) =
      some { s.set index attempt.next.next with executed := s.executed ++ [again] } := by
    have held : (s.set index attempt.next).workflows[attempt.next.workflow]? = some row := stored
    rw [advance_eq moved executes]
    simp only [record, held, commits]
    simp [WorkflowAttempt.perform, set, again]
  refine ⟨{ s.set index attempt.next.next with executed := s.executed ++ [again] }, ?_, ?_⟩
  · simp only [Machine.run, machine, first, second, Option.bind_some]
  · intro unrepeated
    have never := (unrepeated again (List.mem_append_right _ (List.mem_singleton_self _))).1
    exact absurd (succeeded.symm.trans never) (by decide)

/-- A run whose resumptions find nothing that has succeeded executes each node once it may and never
again; a resumption that finds a succeeded node executes one again in its first two steps. -/
theorem resumes_unfinished (s : DynamicWorkflows)
    (reached : (machine.restrict fun s action => s.resumesFresh action = true).Reachable s) :
    s.Unrepeated ∧ ∀ (index : Nat) (row : WorkflowRow) (node : WorkflowNode) (t : DynamicWorkflows),
      s.resumable = some index → s.workflows[index]? = some row → row.succeeded node = true →
        s.step .resume = some t → ∃ u, machine.run t [.advance s.attempts.length false,
          .advance s.attempts.length false] = some u ∧ ¬ u.Unrepeated := by
  have fresh := fresh_reachable reached
  refine ⟨fresh.unrepeated, fun index row node t found stored done stepped => ?_⟩
  obtain ⟨count, begun⟩ := fresh.begun row (List.mem_of_getElem? stored)
  have below := (begun node).mp done
  have ingested : row.succeeded .eventIngest = true :=
    (begun .eventIngest).mpr (Nat.lt_of_le_of_lt (Nat.zero_le _) below)
  simp only [step, found, stored, Option.map_some, Option.some.injEq] at stepped
  subst stepped
  let new : WorkflowAttempt :=
    { workflow := index, graph := restore row.tasks WorkflowNode.all none fun _ => {} }
  have kept : new.succeeded .eventIngest = true := by
    cases held : row.tasks .eventIngest with
    | none => simp [WorkflowRow.succeeded, held] at ingested
    | some task =>
        have status : task.status = .succeeded := by
          simpa [WorkflowRow.succeeded, held] using ingested
        have restored : restore row.tasks WorkflowNode.all none (fun _ => {}) .eventIngest =
            task := by
          unfold WorkflowNode.all restore
          simp only [held, Option.getD_some, status]
          rw [if_neg (by decide), if_neg (by decide), restore_of_not_mem (by decide),
            Function.update_self]
        simp [WorkflowAttempt.succeeded, new, restored, status]
  obtain ⟨inside, -⟩ := List.getElem?_eq_some_iff.mp stored
  exact reexecutes new new.row List.getElem?_concat_length rfl rfl kept
    (List.getElem?_set_self inside) kept

/-! An attempt stops, and another one takes its workflow up to the end. -/

def stopAndResume (steps : Nat) : List WorkflowAction :=
  .resume :: List.replicate steps (.advance 0 false) ++ [.crash 0, .resume] ++
    List.replicate program.length (.advance 1 false)

/-- The first attempt stops before its first node has succeeded. -/
theorem resumes_unfinished_early : ∃ s : DynamicWorkflows,
    machine.run {} (stopAndResume 1) = some s ∧ s.Unrepeated ∧
      s.executed.map NodeExecution.node = WorkflowNode.all := by
  have ends : (machine.run {} (stopAndResume 1)).map (fun s =>
      s.executed.map NodeExecution.node) = some WorkflowNode.all := by decide +kernel
  have met : machine.along resumesFresh {} (stopAndResume 1) = true := by decide +kernel
  obtain ⟨s, ran, executed⟩ := Option.map_eq_some_iff.mp ends
  have reached := Machine.reachable_restrict_of_run _ rfl ran (Machine.meetsAlong_of_along met)
  exact ⟨s, ran, (resumes_unfinished s reached).1, executed⟩

/-- The first attempt stops behind `create_pending_replan`; its first three nodes have succeeded and
are executed again. -/
theorem succeeded_nodes_rerun : ∃ s : DynamicWorkflows, machine.Reachable s ∧
    s.executed.map NodeExecution.node = WorkflowNode.all.take 4 ++ WorkflowNode.all ∧
      (s.executed.filter fun execution => execution.row.succeeded execution.node).map
        NodeExecution.node = [.eventIngest, .supervisorDispatch, .replanner] ∧ ¬ s.Unrepeated := by
  have ends : (machine.run {} (stopAndResume 11)).map (fun s =>
      (s.executed.map NodeExecution.node,
        (s.executed.filter fun execution => execution.row.succeeded execution.node).map
          NodeExecution.node)) =
      some (WorkflowNode.all.take 4 ++ WorkflowNode.all,
        [.eventIngest, .supervisorDispatch, .replanner]) := by decide +kernel
  obtain ⟨s, ran, ends⟩ := Option.map_eq_some_iff.mp ends
  obtain ⟨executed, repeated⟩ := Prod.mk.inj ends
  refine ⟨s, Machine.reachable_of_run _ rfl ran, executed, repeated, fun unrepeated => ?_⟩
  have empty : s.executed.filter (fun execution => execution.row.succeeded execution.node) = [] := by
    refine List.filter_eq_nil_iff.mpr fun execution member => ?_
    rw [(unrepeated execution member).1]
    exact Bool.false_ne_true
  rw [empty] at repeated
  contradiction

end DynamicWorkflows
end MapGo.Patch
