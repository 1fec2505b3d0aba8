import MapGo.Patch.Replan

/-! Deterministic validation of a patched plan: the stops are matched with the tasks
of the intent, the order is evaluated under the intent's constraints and times and
totals are written back. -/
namespace MapGo.Patch

open MapGo.Route

/-- The order and candidates read off the stops, with the identity conflicts. -/
structure Selected where
  order : List Nat := []
  nodes : List CandidateNode := []
  conflicts : List String := []

def candidateOf (stop : Stop) (taskIndex position : Nat) : CandidateNode where
  taskIndex := taskIndex
  candidateRank := stop.candidateRank
  matrixIndex := position
  rating := stop.poi.rating
  confidence := stop.poi.confidence
  estimatedCostYuan := stop.poi.estimatedCostYuan
  openNow := stop.poi.openNow
  wheelchairAccessible := stop.poi.wheelchairAccessible
  district := stop.poi.district

/-- One turn of the loop over the stops; positions count from one. -/
def selectStop (taskCount : Nat) (selected : Selected) : Stop × Nat → Selected
  | (stop, position) =>
      match stop.taskIndex with
      | .ofNat taskIndex =>
          if taskIndex < taskCount ∧ taskIndex ∉ selected.order then
            { selected with
              order := selected.order ++ [taskIndex]
              nodes := selected.nodes ++ [candidateOf stop taskIndex position] }
          else { selected with
            conflicts := selected.conflicts ++ ["补丁破坏了任务身份或包含重复任务"] }
      | .negSucc _ => { selected with
          conflicts := selected.conflicts ++ ["补丁破坏了任务身份或包含重复任务"] }

def selectStops (taskCount : Nat) (stops : List Stop) : Selected :=
  (stops.zipIdx 1).foldl (selectStop taskCount) {}

def requiredMissing (tasks : List PlanningTask) (order : List Nat) : List Nat :=
  (tasks.zipIdx.filter fun (task, index) => task.required ∧ index ∉ order).map Prod.snd

/-- The conflicts found before the evaluation. -/
def identityConflicts (tasks : List PlanningTask) (selected : Selected) : List String :=
  let missing := requiredMissing tasks selected.order
  selected.conflicts ++
    if missing = [] then []
    else ["补丁删除了必经任务：" ++ "、".intercalate (missing.map fun index => toString (index + 1))]

/-- What the patched plan is evaluated with. -/
def validationContext (intent : PlanningIntent) (departure : DateTime) (matrix : RouteMatrix) :
    Context where
  departure := departure
  tasks := intent.tasks
  matrix := matrix
  preferences := intent.preferences
  constraints := intent.hard
  mode := intent.transportMode
  safetyBufferMinutes := intent.safetyBuffers.foldl max 0

/-- The times of one stop after the evaluation; `none` is an `IndexError` or a `KeyError`. -/
def retime (intent : PlanningIntent) (matrix : RouteMatrix) (selected : Selected)
    (evaluation : RouteEvaluation) (stop : Stop) : Option Stop := do
  let taskIndex := stop.taskIndex.toNat
  let resultIndex := selected.order.idxOf taskIndex
  let node ← selected.nodes[resultIndex]?
  let previous ← if resultIndex = 0 then some 0
    else (selected.nodes[resultIndex - 1]?).map CandidateNode.matrixIndex
  let edge ← matrix.edge previous node.matrixIndex
  let arrival ← evaluation.arrivals[resultIndex]?
  let left ← evaluation.departures[resultIndex]?
  let task ← intent.tasks[taskIndex]?
  return { stop with
    arrivalTime := some arrival
    departureTime := some left
    travel := some edge
    constraintSatisfied :=
      some (!(evaluation.conflicts.any fun conflict => contains conflict.text task.description)) }

def leastConfidence (stops : List Stop) : ℚ :=
  match stops.map fun stop => (stop.travel.map RouteEdge.confidence).getD 0 with
  | [] => 0
  | first :: rest => rest.foldl min first

def contextMissing : AppError :=
  ⟨409, "PATCH_CONTEXT_MISSING", "原计划缺少可重算的起点或出发时间"⟩

def recalculateAndValidateSnapshot (provider : MapProvider) (snapshot : Snapshot)
    (stops : List Stop) (replanContext : Option ReplanContext) :
    Except Failure (Snapshot × List String) :=
  let context := replanContext.getD {}
  match context.origin.or snapshot.origin, context.departureTime.or snapshot.departureTime with
  | some origin, some departure => do
      let intent := snapshot.intent
      let matrix ← orRaise (provider.routeMatrix (origin :: stops.map fun stop => stop.poi.location)
        intent.transportMode)
      let selected := selectStops intent.tasks.length stops
      let conflicts := identityConflicts intent.tasks selected
      if conflicts ≠ [] then .ok (snapshot, conflicts)
      else
        let evaluation ← orRaise (evaluateJointOrder (validationContext intent departure matrix)
          selected.order (selectionOf selected.nodes))
        let stops ← orRaise (stops.mapM (retime intent matrix selected evaluation))
        .ok ({ snapshot with
          stops := stops
          totalDistanceMeters := some evaluation.totalDistance
          totalTravelSeconds := some evaluation.totalTravelSeconds
          estimatedCostYuan := some (estimatedCost stops)
          confidence := some (leastConfidence stops)
          algorithm := some "shared-joint-validator-plan-patch"
          departureTime := some departure }, evaluation.conflicts.map Conflict.text)
  | _, _ => .error (.app contextMissing)

end MapGo.Patch
