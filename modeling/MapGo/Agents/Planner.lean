import MapGo.Agents.Search
import MapGo.Planning.Evaluation
import MapGo.Route.Detour

/-! The planner agent. The places that were found become nodes of a route matrix, the optimizer
chooses among them, and the arguments of every tool are checked where they are built. -/
namespace MapGo.Agents

open MapGo.Route
open MapGo.Planning (Plan PlanStop PlanIntent PlanTask Stamp)

/-- `PoiCandidate` -/
structure FoundPlace where
  id : String
  name : String
  address : String := ""
  location : Coordinate
  rating : Option ℚ := none
  source : String := "unknown"
  confidence : ℚ := 7 / 10
  district : Option String := none
  openNow : Option Bool := none
  wheelchairAccessible : Option Bool := none
  estimatedCostYuan : Option ℚ := none
  deriving DecidableEq, Repr

structure RouteMatrixArgs where
  points : List Coordinate
  transportMode : TransportMode
  points_bounds : 2 ≤ points.length ∧ points.length ≤ 25

def RouteMatrixArgs.validate (points : List Coordinate) (mode : TransportMode) :
    Except StageError RouteMatrixArgs :=
  if valid : 2 ≤ points.length ∧ points.length ≤ 25 then .ok ⟨points, mode, valid⟩
  else .error .validationError

structure OptimizeRouteArgs where
  candidateGroupCount : Nat
  transportMode : TransportMode
  hardConstraints : HardConstraints
  count_bounds : 1 ≤ candidateGroupCount ∧ candidateGroupCount ≤ 24

def OptimizeRouteArgs.validate (count : Nat) (mode : TransportMode) (hard : HardConstraints) :
    Except StageError OptimizeRouteArgs :=
  if valid : 1 ≤ count ∧ count ≤ 24 then .ok ⟨count, mode, hard, valid⟩
  else .error .validationError

/-- The schema of `RouteEdge` has no negative measures. -/
def Measured (edge : RouteEdge) : Prop := 0 ≤ edge.durationSeconds ∧ 0 ≤ edge.distanceMeters

/-- The context of a planner run, with one group of places for each task. -/
structure PlannerAgentInput where
  intent : ValidIntent
  origin : Coordinate
  /-- The departure time of the intent, or now. -/
  departure : DateTime
  maxCandidatesPerTask : Nat := 3
  candidateGroups : List (List FoundPlace)
  clarificationQuestions : List String := []
  candidates_bounds : 1 ≤ maxCandidatesPerTask ∧ maxCandidatesPerTask ≤ 5 := by decide
  sized : candidateGroups.length = intent.tasks.length

/-- The settings and tools of the planner; a tool answers `none` when it fails. -/
structure PlannerTools where
  maxRouteMatrixPoints : Int := 25
  routeMatrix : List Coordinate → TransportMode → Option RouteMatrix
  solver : RoutingSolver
  transitEdges : List Coordinate → Option (List RouteEdge)
  matrix_measured : ∀ points mode, ∀ matrix ∈ routeMatrix points mode,
    ∀ row ∈ matrix.edges, ∀ edge ∈ row, Measured edge
  transit_measured : ∀ points, ∀ edges ∈ transitEdges points, ∀ edge ∈ edges, Measured edge

def placeNode (taskIndex rank matrixIndex : Nat) (place : FoundPlace) : CandidateNode where
  taskIndex := taskIndex
  candidateRank := rank
  matrixIndex := matrixIndex
  rating := place.rating
  confidence := place.confidence
  estimatedCostYuan := place.estimatedCostYuan
  openNow := place.openNow
  wheelchairAccessible := place.wheelchairAccessible
  district := place.district

/-- The nodes of groups, numbered from a task and a point of the matrix on. -/
def candidateNodes : Nat → Nat → List (List FoundPlace) → List (List CandidateNode)
  | _, _, [] => []
  | taskIndex, matrixIndex, group :: rest =>
      (group.mapIdx fun rank place => placeNode taskIndex rank (matrixIndex + rank) place) ::
        candidateNodes (taskIndex + 1) (matrixIndex + group.length) rest

namespace PlannerAgentInput
variable (input : PlannerAgentInput) (tools : PlannerTools)

def perTaskLimit : Nat :=
  (min (input.maxCandidatesPerTask : Int)
    (max 1 ((tools.maxRouteMatrixPoints - 1) / input.intent.tasks.length))).toNat

def candidates : List (List FoundPlace) :=
  input.candidateGroups.map (List.take (input.perTaskLimit tools))

/-- The points of the route matrix. -/
def points : List Coordinate :=
  input.origin :: (input.candidates tools).flatten.map FoundPlace.location

def groups : List (List CandidateNode) := candidateNodes 0 1 (input.candidates tools)

def context (matrix : RouteMatrix) : Context where
  departure := input.departure
  tasks := input.intent.tasks
  matrix := matrix
  preferences := input.intent.preferences
  constraints := input.intent.hard
  mode := input.intent.transportMode
  safetyBufferMinutes := input.intent.safetyBuffers.foldl max 0

/-- `candidates[node.task_index][node.candidate_rank]` -/
def placeOf (node : CandidateNode) : Option FoundPlace :=
  ((input.candidates tools)[node.taskIndex]?).bind (·[node.candidateRank]?)

/-- The points along a route, and home. -/
def sequencePoints (nodes : List CandidateNode) : Option (List Coordinate) := do
  let places ← nodes.mapM (input.placeOf tools)
  return input.origin :: places.map FoundPlace.location ++
    if input.intent.hard.mustReturnToOrigin then [input.origin] else []

/-- The verified transit edges, where they are asked for. -/
def verifyTransit (evaluation : RouteEvaluation) : Except StageError (Option (List RouteEdge)) :=
  if input.intent.transportMode = .transit ∧ evaluation.selectedNodes ≠ [] then do
    let points ← (input.sequencePoints tools evaluation.selectedNodes).elim (.error .indexError) .ok
    let arguments ← RouteMatrixArgs.validate points .transit
    return tools.transitEdges arguments.points
  else .ok none

/-- The route over the verified edges, with its matrix. -/
def refine (ctx : Context) (evaluation : RouteEvaluation) :
    Option (List RouteEdge) → Except StageError (RouteMatrix × RouteEvaluation)
  | none => .ok (ctx.matrix, evaluation)
  | some edges =>
      let refined := ctx.refined evaluation edges
      (reevaluateSelectedRoute refined evaluation).elim (.error .indexError) fun evaluation =>
        .ok (refined.matrix, evaluation)

def planTask (task : PlanningTask) : PlanTask where
  description := some task.description
  locationName := task.locationName
  category := task.category
  deadline := task.deadline.map .aware

def planStop (matrix : RouteMatrix) (previous : Nat) (node : CandidateNode)
    (arrived left : DateTime) : Option PlanStop := do
  let task ← input.intent.tasks[node.taskIndex]?
  let place ← input.placeOf tools node
  let edge ← matrix.edge previous node.matrixIndex
  return {
    poi :=
      { id := some place.id, name := some place.name, address := some place.address
        source := some place.source, rating := place.rating
        estimatedCostYuan := place.estimatedCostYuan }
    travel := { distanceMeters := some edge.distanceMeters, confidence := some edge.confidence }
    task := planTask task
    arrivalTime := some (.aware arrived)
    departureTime := some (.aware left)
    constraintSatisfied :=
      some (task.deadline.all fun deadline => arrived.instant ≤ deadline.instant) }

def planStops (matrix : RouteMatrix) : Nat → List CandidateNode → List DateTime → List DateTime →
    Option (List PlanStop)
  | _, [], _, _ => some []
  | previous, node :: nodes, arrived :: arrivals, left :: departures => do
      let stop ← input.planStop tools matrix previous node arrived left
      let rest ← planStops matrix node.matrixIndex nodes arrivals departures
      return stop :: rest
  | _, _ :: _, _, _ => none

def planIntent : PlanIntent where
  transportMode := input.intent.transportMode
  preferences :=
    { avoidHiking := input.intent.avoidHiking
      travelStyle := input.intent.preferences.travelStyle
      minimizeWalking := input.intent.preferences.minimizeWalking
      preferHighRating := input.intent.preferences.preferHighRating }
  hard :=
    { latestReturnTime := input.intent.hard.latestReturnTime.map .aware
      maxTotalDurationMinutes :=
        input.intent.hard.maxTotalDurationMinutes.map fun limit : Nat => (limit : ℚ)
      maxTotalCostYuan := input.intent.hard.maxTotalCostYuan
      maxWalkingMeters := input.intent.hard.maxWalkingMeters
      wheelchairAccessible := input.intent.hard.wheelchairAccessible
      elderly := input.intent.elderly
      children := input.intent.children
      wheelchairUsers := input.intent.hard.wheelchairUsers }
  uncertain := input.intent.uncertain

/-- The plan when there are questions, or a tool is out of order. -/
def clarification : Plan := { status := .needClarification, intent := input.planIntent }

/-- The plan over an evaluated route. -/
def plan (matrix : RouteMatrix) (evaluation : RouteEvaluation) : Option Plan := do
  let stops ← input.planStops tools matrix 0 evaluation.selectedNodes evaluation.arrivals
    evaluation.departures
  return {
    status := if evaluation.feasible then .success else .infeasible
    intent := input.planIntent
    stops := stops
    totalDistanceMeters := some evaluation.totalDistance
    totalTravelSeconds := some evaluation.totalTravelSeconds
    candidateRatings := (input.candidates tools).flatten.map FoundPlace.rating }

/-- From the optimizer's answer on. -/
def finish (ctx : Context) (evaluation : RouteEvaluation) : Except StageError Plan := do
  let edges ← input.verifyTransit tools evaluation
  let (matrix, evaluation) ← refine ctx evaluation edges
  (input.plan tools matrix evaluation).elim (.error .indexError) .ok

/-- `PlannerAgent.run` -/
def run : Except StageError Plan :=
  if input.clarificationQuestions ≠ [] then .ok input.clarification
  else do
    let arguments ← RouteMatrixArgs.validate (input.points tools) input.intent.transportMode
    match tools.routeMatrix arguments.points arguments.transportMode with
    | none => .ok input.clarification
    | some matrix => do
        let _ ← OptimizeRouteArgs.validate (input.groups tools).length input.intent.transportMode
          input.intent.hard
        match (input.context matrix).joint tools.solver (input.groups tools) with
        | none => .ok input.clarification
        | some (evaluation, _) => input.finish tools (input.context matrix) evaluation

end PlannerAgentInput

section
variable {input : PlannerAgentInput} {tools : PlannerTools} {node : CandidateNode}
  {nodes : List CandidateNode} {evaluation : RouteEvaluation}

theorem perTaskLimit_pos : 1 ≤ input.perTaskLimit tools := by
  have asked := input.candidates_bounds.1
  unfold PlannerAgentInput.perTaskLimit
  omega

/-- The candidates of all tasks fit in the matrix beside the origin. -/
theorem perTaskLimit_fits (small : tools.maxRouteMatrixPoints ≤ 25) :
    input.intent.tasks.length * input.perTaskLimit tools ≤ 24 := by
  have bound : input.intent.tasks.length ≤ 24 := input.intent.tasks_bound
  have some : 0 < input.intent.tasks.length := List.length_pos_of_ne_nil input.intent.tasks_ne
  unfold PlannerAgentInput.perTaskLimit
  generalize input.intent.tasks.length = count at *
  have share : (tools.maxRouteMatrixPoints - 1) / (count : Int) ≤ (24 / count : Nat) := by
    rw [Int.natCast_ediv]
    exact Int.ediv_le_ediv (by omega) (by omega)
  have limit : (min (input.maxCandidatesPerTask : Int)
      (max 1 ((tools.maxRouteMatrixPoints - 1) / count))).toNat ≤ max 1 (24 / count) := by
    omega
  have shared : count * (24 / count) ≤ 24 := Nat.mul_div_le 24 count
  calc count * _ ≤ count * max 1 (24 / count) := Nat.mul_le_mul_left count limit
    _ = max (count * 1) (count * (24 / count)) := Nat.mul_max_mul_left .. |>.symm
    _ ≤ 24 := by omega

theorem length_candidates : (input.candidates tools).length = input.intent.tasks.length := by
  rw [PlannerAgentInput.candidates, List.length_map, input.sized]

theorem length_flatten_take (groups : List (List FoundPlace)) (limit : Nat) :
    (groups.map (List.take limit)).flatten.length ≤ groups.length * limit := by
  induction groups with
  | nil => exact Nat.zero_le _
  | cons group rest ih =>
      simp only [List.map_cons, List.flatten_cons, List.length_append, List.length_take,
        List.length_cons, Nat.succ_mul]
      omega

theorem points_bounds (small : tools.maxRouteMatrixPoints ≤ 25)
    (full : [] ∉ input.candidateGroups) :
    2 ≤ (input.points tools).length ∧ (input.points tools).length ≤ 25 := by
  have fits : input.intent.tasks.length * input.perTaskLimit tools ≤ 24 :=
    perTaskLimit_fits small
  have most := length_flatten_take input.candidateGroups (input.perTaskLimit tools)
  rw [input.sized] at most
  have some : 1 ≤ (input.candidates tools).flatten.length := by
    obtain ⟨group, member⟩ := List.exists_mem_of_length_pos
      (input.sized ▸ List.length_pos_of_ne_nil input.intent.tasks_ne)
    obtain ⟨place, placed⟩ := List.exists_mem_of_ne_nil group fun empty => full (empty ▸ member)
    have kept : group.take (input.perTaskLimit tools) ≠ [] := by
      rw [ne_eq, List.take_eq_nil_iff, not_or]
      exact ⟨Nat.one_le_iff_ne_zero.mp perTaskLimit_pos, List.ne_nil_of_mem placed⟩
    obtain ⟨found, inside⟩ := List.exists_mem_of_ne_nil _ kept
    exact List.length_pos_of_mem
      (List.mem_flatten_of_mem (List.mem_map_of_mem member) inside)
  simp only [PlannerAgentInput.points, List.length_cons, List.length_map]
  unfold PlannerAgentInput.candidates at some ⊢
  omega

theorem length_candidateNodes (taskIndex point : Nat) (groups : List (List FoundPlace)) :
    (candidateNodes taskIndex point groups).length = groups.length := by
  induction groups generalizing taskIndex point with
  | nil => rfl
  | cons group rest ih => exact congrArg (· + 1) (ih _ _)

/-- The nodes of a group stand for its places. -/
theorem candidateNodes_place {taskIndex point i : Nat} {groups : List (List FoundPlace)}
    (placed : (candidateNodes taskIndex point groups)[i]? = some nodes) (member : node ∈ nodes) :
    ∃ group place matrixIndex, groups[i]? = some group ∧ group[node.candidateRank]? = some place ∧
      node = placeNode (taskIndex + i) node.candidateRank matrixIndex place := by
  induction groups generalizing taskIndex point i with
  | nil => contradiction
  | cons group rest ih =>
      cases i with
      | zero =>
          obtain rfl := Option.some.inj placed
          obtain ⟨rank, inside, rfl⟩ := List.mem_mapIdx.mp member
          exact ⟨group, group[rank], point + rank, rfl, List.getElem?_eq_getElem inside, rfl⟩
      | succ i =>
          obtain ⟨found, place, matrixIndex, there, ranked, same⟩ := ih placed
          refine ⟨found, place, matrixIndex, there, ranked, same.trans ?_⟩
          rw [Nat.add_right_comm, Nat.add_assoc]

theorem groups_owned : Owned (input.groups tools) := by
  intro i group placed node member
  obtain ⟨-, place, matrixIndex, -, -, same⟩ := candidateNodes_place placed member
  rw [same]
  exact Nat.zero_add i

theorem groups_sized : (input.groups tools).length = input.intent.tasks.length :=
  (length_candidateNodes ..).trans length_candidates

/-- Every stop of a tour is a place that was found. -/
theorem placeOf_isSome (tour : Tour (input.groups tools) evaluation)
    (member : node ∈ evaluation.selectedNodes) :
    ∃ place, input.placeOf tools node = some place := by
  obtain ⟨k, there⟩ := List.mem_iff_getElem?.mp member
  obtain ⟨bound, rfl⟩ := List.getElem?_eq_some_iff.mp there
  obtain ⟨group, placed, inside⟩ := tour.2.get (tour.2.length_eq ▸ bound) bound
  obtain ⟨found, place, matrixIndex, stood, ranked, same⟩ := candidateNodes_place placed inside
  refine ⟨place, ?_⟩
  have own := groups_owned _ _ placed _ inside
  rw [PlannerAgentInput.placeOf]
  simp only [List.get_eq_getElem] at own ranked stood
  rw [own, stood]
  exact ranked

theorem tour_length (tour : Tour (input.groups tools) evaluation) :
    evaluation.selectedNodes.length = input.intent.tasks.length := by
  rw [← tour.2.length_eq, tour.1.length_eq, List.length_range, groups_sized]

theorem sequencePoints_length (tour : Tour (input.groups tools) evaluation) :
    ∃ points, input.sequencePoints tools evaluation.selectedNodes = some points ∧
      points.length = 1 + input.intent.tasks.length +
        if input.intent.hard.mustReturnToOrigin then 1 else 0 := by
  have found : ∀ node ∈ evaluation.selectedNodes, ∃ place, input.placeOf tools node = some place :=
    fun node member => placeOf_isSome tour member
  obtain ⟨places, mapped, size⟩ := mapM_exists found
  rw [tour_length tour] at size
  refine ⟨_, by rw [PlannerAgentInput.sequencePoints, mapped]; rfl, ?_⟩
  rw [← size]
  split
  · simp only [List.length_append, List.length_cons, List.length_map, List.length_nil]
    omega
  · simp only [List.length_append, List.length_cons, List.length_map, List.length_nil]
    omega

theorem validate_error_iff {points : List Coordinate} {mode : TransportMode} :
    RouteMatrixArgs.validate points mode = .error .validationError ↔
      ¬ (2 ≤ points.length ∧ points.length ≤ 25) := by
  unfold RouteMatrixArgs.validate
  split
  next valid => simp [valid]
  next invalid => simp [invalid]

/-- Transit is verified along one point for each task, the origin and the way home. -/
theorem verifyTransit_error_iff (tour : Tour (input.groups tools) evaluation) :
    input.verifyTransit tools evaluation = .error .validationError ↔
      input.intent.transportMode = .transit ∧ input.intent.hard.mustReturnToOrigin = true ∧
        input.intent.tasks.length = 24 := by
  obtain ⟨points, found, size⟩ := sequencePoints_length tour
  have most : input.intent.tasks.length ≤ 24 := input.intent.tasks_bound
  have least := List.length_pos_of_ne_nil input.intent.tasks_ne
  have stops : evaluation.selectedNodes ≠ [] := by
    rw [ne_eq, ← List.length_eq_zero_iff, tour_length tour]
    exact Nat.ne_of_gt least
  unfold PlannerAgentInput.verifyTransit
  by_cases transit : input.intent.transportMode = .transit
  · rw [if_pos ⟨transit, stops⟩, found]
    have same : ∀ checked : Except StageError RouteMatrixArgs,
        (checked >>= fun arguments => pure (tools.transitEdges arguments.points)) =
          .error .validationError ↔ checked = .error .validationError := by
      intro checked
      cases checked <;> simp [bind, Except.bind, pure, Except.pure]
    refine (same _).trans (validate_error_iff.trans ?_)
    simp only [transit, true_and]
    rw [size]
    split
    · rename_i returns
      simp only [returns, true_and]
      omega
    · rename_i stays
      simp only [stays, Bool.false_eq_true, false_and, iff_false, not_not]
      omega
  · rw [if_neg fun asked => transit asked.1]
    simp [transit]

theorem finish_error_iff {ctx : Context} :
    input.finish tools ctx evaluation = .error .validationError ↔
      input.verifyTransit tools evaluation = .error .validationError := by
  unfold PlannerAgentInput.finish
  cases input.verifyTransit tools evaluation with
  | error raised => simp [bind, Except.bind]
  | ok edges =>
      simp only [bind, Except.bind, reduceCtorEq, iff_false]
      cases refined : PlannerAgentInput.refine ctx evaluation edges with
      | error raised =>
          have found : raised = .indexError := by
            cases edges with
            | none => contradiction
            | some edges =>
                simp only [PlannerAgentInput.refine] at refined
                cases judged : reevaluateSelectedRoute (ctx.refined evaluation edges) evaluation with
                | none => simpa [judged, eq_comm] using refined
                | some e => simp [judged] at refined
          simp [found]
      | ok answer =>
          cases planned : input.plan tools answer.1 answer.2 <;> simp [planned]

/-- A round trip of 24 stops by public transport, whose points are asked for all at once. -/
structure TransitOverflows (input : PlannerAgentInput) (tools : PlannerTools) : Prop where
  asks : input.clarificationQuestions = []
  transit : input.intent.transportMode = .transit
  returns : input.intent.hard.mustReturnToOrigin = true
  stops : input.intent.tasks.length = 24
  solved : ∃ matrix, tools.routeMatrix (input.points tools) input.intent.transportMode = some matrix ∧
    ((input.context matrix).joint tools.solver (input.groups tools)).isSome = true

theorem run_validation_iff (complete : tools.solver.Complete)
    (small : tools.maxRouteMatrixPoints ≤ 25) (full : [] ∉ input.candidateGroups) :
    input.run tools = .error .validationError ↔ TransitOverflows input tools := by
  unfold PlannerAgentInput.run
  by_cases quiet : input.clarificationQuestions = []
  · have bounds : 2 ≤ (input.points tools).length ∧ (input.points tools).length ≤ 25 :=
      points_bounds small full
    have counted : 1 ≤ (input.groups tools).length ∧ (input.groups tools).length ≤ 24 := by
      rw [groups_sized]
      exact ⟨List.length_pos_of_ne_nil input.intent.tasks_ne, input.intent.tasks_bound⟩
    rw [if_neg (not_not.mpr quiet), RouteMatrixArgs.validate, dif_pos bounds]
    simp only [bind, Except.bind]
    cases answered : tools.routeMatrix (input.points tools) input.intent.transportMode with
    | none =>
        refine iff_of_false (by simp) fun excess => ?_
        obtain ⟨matrix, found, -⟩ := excess.solved
        simp [answered] at found
    | some matrix =>
        rw [OptimizeRouteArgs.validate, dif_pos counted]
        dsimp only
        cases joint : (input.context matrix).joint tools.solver (input.groups tools) with
        | none =>
            refine iff_of_false (by simp) fun excess => ?_
            obtain ⟨other, found, solved⟩ := excess.solved
            obtain rfl := Option.some.inj (answered.symm.trans found)
            simp [joint] at solved
        | some answer =>
            obtain ⟨evaluation, algorithm⟩ := answer
            have tour := joint_tour complete groups_sized groups_owned joint
            refine finish_error_iff.trans ((verifyTransit_error_iff tour).trans ?_)
            constructor
            · rintro ⟨transit, returns, stops⟩
              exact ⟨quiet, transit, returns, stops, matrix, answered, by simp [joint]⟩
            · exact fun excess => ⟨excess.transit, excess.returns, excess.stops⟩
  · rw [if_pos quiet]
    exact iff_of_false (by simp) fun excess => quiet excess.asks

/-- Search and planning raise no validation error exactly where every keyword fits its arguments
and the points of the transit request fit theirs. -/
theorem stage_arguments_valid_iff (lower : String → String) (search : SearchAgentInput)
    (input : PlannerAgentInput) (tools : PlannerTools) (complete : tools.solver.Complete)
    (small : tools.maxRouteMatrixPoints ≤ 25) (full : [] ∉ input.candidateGroups) :
    ((∃ calls, search.run lower = .ok calls) ∧ input.run tools ≠ .error .validationError) ↔
      (∀ task ∈ search.intent.tasks, KeywordFits lower task search.intent.discovery) ∧
        ¬ TransitOverflows input tools :=
  and_congr search_run_ok_iff (not_congr (run_validation_iff complete small full))

/-- Tools with one minute and sixty metres between any two points. -/
def evenTools : PlannerTools where
  routeMatrix points _ :=
    some ⟨List.replicate points.length (List.replicate points.length ⟨60, 60, 1⟩)⟩
  solver := unsolved
  transitEdges _ := none
  matrix_measured := by
    rintro points mode matrix found row inside edge member
    obtain rfl := Option.some.inj found
    rw [List.eq_of_mem_replicate inside] at member
    rw [List.eq_of_mem_replicate member]
    norm_num [Measured]
  transit_measured := by
    rintro points edges found
    contradiction

def museumTasks (count : Nat) (name : Option String) : List PlanningTask :=
  List.replicate count { description := "museum", locationName := name }

theorem museumTasks_fit {count : Nat} {name : Option String}
    (short : ∀ text ∈ name, text.length ≤ 200) :
    ∀ task ∈ museumTasks count name, TaskFits task := by
  intro task member
  obtain rfl := List.eq_of_mem_replicate member
  have one : 1 ≤ "museum".length := by decide
  have few : "museum".length ≤ 300 := by decide
  exact ⟨one, few, short, by simp⟩

theorem unnamed_fits : ∀ text ∈ (none : Option String), text.length ≤ 200 := by simp

theorem unlimited_nonneg : ∀ limit ∈ (none : Option ℚ), 0 ≤ limit := by simp

def noWishes : RecallPreferences := {}

def museumIntent (name : Option String) (short : ∀ text ∈ name, text.length ≤ 200) :
    ValidIntent where
  tasks := museumTasks 1 name
  tasks_ne := by simp [museumTasks]
  tasks_bound := by simp [museumTasks, maxPlanningTasks]
  tasks_fit := museumTasks_fit short
  walking_nonneg := unlimited_nonneg
  cost_nonneg := unlimited_nonneg

/-- A round trip by public transport, in the order of its 24 stops. -/
def roundTrip : ValidIntent where
  transportMode := .transit
  tasks := museumTasks 24 none
  hard := { mustReturnToOrigin := true, requiredTaskOrder := (List.range 24).map Int.ofNat }
  tasks_ne := by decide
  tasks_bound := by decide
  tasks_fit := museumTasks_fit unnamed_fits
  walking_nonneg := unlimited_nonneg
  cost_nonneg := unlimited_nonneg

def museumSearch (intent : ValidIntent) : SearchAgentInput where
  intent := intent
  origin := ⟨116, 40⟩
  succeeds _ _ := true
  recovery _ _ := .retry
  maxAttempts := 3
  city_bound := by simp

def museumPlace : FoundPlace where
  id := "museum"
  name := "museum"
  location := ⟨116, 40⟩

def museumPlanner (intent : ValidIntent) : PlannerAgentInput where
  intent := intent
  origin := ⟨116, 40⟩
  departure := ⟨0, 0⟩
  candidateGroups := List.replicate intent.tasks.length [museumPlace]
  sized := List.length_replicate

theorem unsolved_complete : unsolved.Complete := by
  intro departure tasks groups matrix preferences constraints order selected solved
  contradiction

theorem stage_arguments_valid_iff_museum :
    (∃ calls, (museumSearch (museumIntent none (by simp))).run id = .ok calls) ∧
      (museumPlanner (museumIntent none (by simp))).run evenTools ≠ .error .validationError := by
  refine (stage_arguments_valid_iff id _ _ evenTools unsolved_complete (by decide)
    (by decide)).mpr ⟨?_, fun excess => absurd excess.stops (by decide)⟩
  intro task member
  obtain rfl := List.eq_of_mem_replicate member
  unfold KeywordFits
  decide

/-- A name that fits its task, but not the keyword. -/
def longName : String := String.ofList (List.replicate 121 'a')

theorem longName_fits : ∀ text ∈ some longName, text.length ≤ 200 := by
  intro text same
  obtain rfl := Option.some.inj same
  decide +kernel

/-- A place with a name of 121 letters, and a round trip of 24 stops by public transport. -/
theorem stage_arguments_invalid :
    (¬ ∃ calls, (museumSearch (museumIntent (some longName) longName_fits)).run id = .ok calls) ∧
    (museumPlanner roundTrip).run evenTools = .error .validationError := by
  constructor
  · rw [search_run_ok_iff]
    intro fits
    have long := fits { description := "museum", locationName := some longName }
      (List.mem_replicate.mpr ⟨by decide, rfl⟩)
    unfold KeywordFits at long
    revert long
    decide +kernel
  · refine (run_validation_iff unsolved_complete (by decide) (by decide)).mpr
      ⟨rfl, rfl, rfl, rfl, _, rfl, ?_⟩
    decide +kernel

end

end MapGo.Agents
