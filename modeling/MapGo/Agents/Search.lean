import MapGo.Agents.Tools
import MapGo.Planning.Schema
import MapGo.Postcondition
import MapGo.Text

/-! The calls of the search agent. Each task has one keyword, its name with the wishes of the user
behind it, and every call of `search_poi` carries the keyword in arguments that are checked where
they are built. -/
namespace MapGo.Agents

open Postcondition (mapM_ok_iff)
open MapGo.Route (Coordinate PlanningIntent PlanningTask)

def maxPlanningTasks : Nat := 24

inductive PreferredEnvironment where
  | quiet | uncrowded | indoor | outdoor
  deriving DecidableEq, Repr

/-- `environment_labels` -/
def PreferredEnvironment.label : PreferredEnvironment → String
  | .quiet => "安静"
  | .uncrowded => "小众"
  | .indoor => "室内"
  | .outdoor => "户外"

/-- The preferences that place research reads besides those of the optimizer. -/
structure RecallPreferences where
  dietaryRestrictions : List String := []
  preferredCategories : List String := []
  preferredEnvironment : List PreferredEnvironment := []
  avoidQueues : Bool := false
  dietary_bound : dietaryRestrictions.length ≤ 20 := by decide
  categories_bound : preferredCategories.length ≤ 10 := by decide
  environment_bound : preferredEnvironment.length ≤ 4 := by decide

/-- The texts of a task within the bounds of its schema. -/
structure TaskFits (task : PlanningTask) : Prop where
  described : 1 ≤ task.description.length
  description : task.description.length ≤ 300
  locationName : ∀ name ∈ task.locationName, name.length ≤ 200
  category : ∀ category ∈ task.category, category.length ≤ 100

/-- A `PlanningIntent` that passes its schema. -/
structure ValidIntent extends PlanningIntent where
  discovery : RecallPreferences := {}
  avoidHiking : Bool := false
  /-- `party.elderly` and `party.children` -/
  elderly : Nat := 0
  children : Nat := 0
  uncertain : List Planning.UncertainConstraint := []
  tasks_ne : tasks ≠ []
  tasks_bound : tasks.length ≤ maxPlanningTasks
  tasks_fit : ∀ task ∈ tasks, TaskFits task
  walking_nonneg : ∀ limit ∈ hard.maxWalkingMeters, 0 ≤ limit
  cost_nonneg : ∀ limit ∈ hard.maxTotalCostYuan, 0 ≤ limit

/-- What a stage raises outside the error handling of its tools. -/
inductive StageError where
  | validationError | indexError
  deriving DecidableEq, Repr

structure SearchPoiArgs where
  keyword : String
  origin : Coordinate
  city : Option String
  keyword_bounds : 1 ≤ keyword.length ∧ keyword.length ≤ 120
  city_bound : ∀ name ∈ city, name.length ≤ 50

def SearchPoiArgs.validate (keyword : String) (origin : Coordinate) (city : Option String) :
    Except StageError SearchPoiArgs :=
  if valid : (1 ≤ keyword.length ∧ keyword.length ≤ 120) ∧ ∀ name ∈ city, name.length ≤ 50 then
    .ok ⟨keyword, origin, city, valid.1, valid.2⟩
  else .error .validationError

def diningTerms : List String := ["餐", "饭", "吃", "咖啡", "茶", "food", "restaurant"]

def genericTerms : List String :=
  ["旅游", "旅行", "游玩", "逛逛", "景点", "行程", "travel", "trip"]

/-- `task.location_name or task.category or task.description` -/
def recallBase (task : PlanningTask) : String :=
  ((task.locationName.filter (· ≠ "")).or (task.category.filter (· ≠ ""))).getD task.description

/-- The text of a task; `lower` is `str.lower`. -/
def taskText (lower : String → String) (task : PlanningTask) : String :=
  lower (" ".intercalate
    [task.description, task.locationName.getD "", task.category.getD ""])

/-- The hints for a generic destination. -/
def RecallPreferences.hints (discovery : RecallPreferences) : List String :=
  let hints := discovery.preferredCategories.take 2 ++
    discovery.preferredEnvironment.map PreferredEnvironment.label
  if discovery.avoidQueues ∧ "小众" ∉ hints then hints ++ ["小众"] else hints

/-- The wishes that go behind the name of a task. -/
def recallWishes (lower : String → String) (task : PlanningTask) (discovery : RecallPreferences) :
    List String :=
  if discovery.dietaryRestrictions ≠ [] ∧ Text.containsAny (taskText lower task) diningTerms then
    discovery.dietaryRestrictions
  else if Text.containsAny (taskText lower task) genericTerms then discovery.hints.take 3
  else []

/-- `_recall_keyword` -/
def recallKeyword (lower : String → String) (task : PlanningTask) (discovery : RecallPreferences) :
    String :=
  let wishes := recallWishes lower task discovery
  if wishes = [] then recallBase task else recallBase task ++ " " ++ " ".intercalate wishes

/-- The `action` of an `AgentRecoveryDecision`. -/
inductive RecoveryAction where
  | retry | fallbackCached | fallbackUnavailable
  deriving DecidableEq, Repr

/-- `SearchAgentInput` with what the tool and the recovery handler do at each attempt. -/
structure SearchAgentInput where
  intent : ValidIntent
  origin : Coordinate
  city : Option String := none
  /-- Whether the call for a task succeeds. -/
  succeeds : Nat → Nat → Bool
  recovery : Nat → Nat → RecoveryAction
  /-- `agent_search_max_attempts` -/
  maxAttempts : Int
  city_bound : ∀ name ∈ city, name.length ≤ 50

namespace SearchAgentInput
variable (input : SearchAgentInput) (lower : String → String)

def keywords : List String :=
  input.intent.tasks.map fun task => recallKeyword lower task input.intent.discovery

def arguments (keyword : String) : Except StageError SearchPoiArgs :=
  SearchPoiArgs.validate keyword input.origin input.city

/-- The calls of the attempts to recover a failed call. -/
def recover (index : Nat) (keyword : String) : Nat → Nat → Except StageError (List SearchPoiArgs)
  | 0, _ => .ok []
  | attempts + 1, attempt =>
      match input.recovery index attempt with
      | .retry => do
          let retry ← input.arguments keyword
          if input.succeeds index attempt then return [retry]
          let further ← recover index keyword attempts (attempt + 1)
          return retry :: further
      | _ => .ok []

/-- The arguments of the `search_poi` calls of `SearchAgent.run`: one call for each task, then the
retries of the failed ones. -/
def run : Except StageError (List SearchPoiArgs) := do
  let keywords := input.keywords lower
  let initial ← keywords.mapM input.arguments
  let attempts := (max 1 (min 10 input.maxAttempts)).toNat
  let retries ← keywords.zipIdx.mapM fun item =>
    if input.succeeds item.2 0 then .ok [] else input.recover item.2 item.1 attempts 1
  return initial ++ retries.flatten

end SearchAgentInput

/-- The name of a task leaves room for the wishes behind it. -/
def KeywordFits (lower : String → String) (task : PlanningTask) (discovery : RecallPreferences) :
    Prop :=
  (recallBase task).length +
    ((recallWishes lower task discovery).map fun wish => wish.length + 1).sum ≤ 120

section
variable {lower : String → String} {task : PlanningTask} {discovery : RecallPreferences}

theorem length_intercalate {words : List String} (some : words ≠ []) :
    (" ".intercalate words).length + 1 = (words.map fun word => word.length + 1).sum := by
  induction words with
  | nil => contradiction
  | cons word rest ih =>
      cases rest with
      | nil => simp
      | cons next more =>
          have onward := ih (List.cons_ne_nil next more)
          rw [String.intercalate_cons_cons, List.map_cons, List.sum_cons, ← onward]
          simp only [String.length_append]
          have blank : " ".length = 1 := rfl
          omega

theorem recallBase_nonempty (fits : TaskFits task) : 1 ≤ (recallBase task).length := by
  have proper {name : Option String} {base : String}
      (kept : base ∈ name.filter (· ≠ "")) : 1 ≤ base.length := by
    have nonempty := (Option.mem_filter_iff.mp kept).2
    exact Nat.one_le_iff_ne_zero.mpr (by simpa using nonempty)
  unfold recallBase
  cases named : task.locationName.filter (· ≠ "") with
  | some base => exact proper named
  | none =>
      cases sorted : task.category.filter (· ≠ "") with
      | some base => exact proper sorted
      | none => exact fits.described

theorem length_recallKeyword : (recallKeyword lower task discovery).length =
    (recallBase task).length +
      ((recallWishes lower task discovery).map fun wish => wish.length + 1).sum := by
  unfold recallKeyword
  dsimp only
  split
  next empty => simp [empty]
  next wishes =>
    rw [← length_intercalate wishes, String.length_append, String.length_append]
    have blank : " ".length = 1 := rfl
    omega

end

section
variable {input : SearchAgentInput} {lower : String → String} {keyword : String}

theorem arguments_ok_iff : (∃ arguments, input.arguments keyword = .ok arguments) ↔
    1 ≤ keyword.length ∧ keyword.length ≤ 120 := by
  unfold SearchAgentInput.arguments SearchPoiArgs.validate
  split
  next valid => simp [valid.1]
  next invalid =>
    simp only [reduceCtorEq, exists_false, false_iff]
    exact fun bounds => invalid ⟨bounds, input.city_bound⟩

/-- A retry repeats arguments that were valid. -/
theorem recover_ok {index : Nat} {arguments : SearchPoiArgs}
    (valid : input.arguments keyword = .ok arguments) (attempts attempt : Nat) :
    ∃ calls, input.recover index keyword attempts attempt = .ok calls := by
  induction attempts generalizing attempt with
  | zero => exact ⟨[], rfl⟩
  | succ attempts ih =>
      unfold SearchAgentInput.recover
      cases input.recovery index attempt with
      | retry =>
          obtain ⟨further, recovered⟩ := ih (attempt + 1)
          cases answered : input.succeeds index attempt with
          | true => exact ⟨[arguments], by simp [valid, bind, Except.bind, pure, Except.pure]⟩
          | false =>
              exact ⟨arguments :: further, by
                simp [valid, recovered, bind, Except.bind, pure, Except.pure]⟩
      | fallbackCached => exact ⟨[], rfl⟩
      | fallbackUnavailable => exact ⟨[], rfl⟩

/-- The agent makes its calls exactly where every keyword fits the tool. -/
theorem search_run_ok_iff : (∃ calls, input.run lower = .ok calls) ↔
    ∀ task ∈ input.intent.tasks, KeywordFits lower task input.intent.discovery := by
  have each : (∀ keyword ∈ input.keywords lower, ∃ arguments, input.arguments keyword =
      .ok arguments) ↔ ∀ task ∈ input.intent.tasks, KeywordFits lower task input.intent.discovery := by
    rw [SearchAgentInput.keywords, List.forall_mem_map]
    refine forall₂_congr fun task member => ?_
    have named := recallBase_nonempty (input.intent.tasks_fit task member)
    rw [arguments_ok_iff, length_recallKeyword, KeywordFits]
    omega
  rw [← each]
  unfold SearchAgentInput.run
  simp only [bind_eq_ok]
  constructor
  · rintro ⟨_, initial, checked, -⟩
    exact mapM_ok_iff.mp ⟨initial, checked⟩
  · intro valid
    obtain ⟨initial, checked⟩ := mapM_ok_iff.mpr valid
    have recovered : ∀ item ∈ (input.keywords lower).zipIdx, ∃ calls,
        (if input.succeeds item.2 0 then .ok [] else input.recover item.2 item.1
          (max 1 (min 10 input.maxAttempts)).toNat 1) = Except.ok calls := by
      intro item member
      obtain ⟨arguments, ready⟩ := valid item.1 (List.fst_mem_of_mem_zipIdx member)
      split
      · exact ⟨[], rfl⟩
      · exact recover_ok ready _ _
    obtain ⟨retries, made⟩ := mapM_ok_iff.mpr recovered
    exact ⟨_, initial, checked, retries, made, rfl⟩

end

end MapGo.Agents
