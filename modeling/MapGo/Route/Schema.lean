import MapGo.Basic

/-! The planning schema, with the fields that route evaluation, optimization and
patch validation read. Lists of edges are the rows of a route matrix. -/
namespace MapGo.Route

inductive TransportMode where
  | walking | driving | transit | cycling
  deriving DecidableEq, Repr

/-- The enumeration order of `TransportMode`. -/
def TransportMode.all : List TransportMode := [.walking, .driving, .transit, .cycling]

structure Coordinate where
  lng : ℚ
  lat : ℚ
  deriving DecidableEq, Repr

inductive OptimizationGoal where
  | balanced | shortestTime | shortestDistance
  deriving DecidableEq, Repr

inductive TravelStyle where
  | balanced | relaxed | intensive
  deriving DecidableEq, Repr

structure ObjectiveWeights where
  travelTime : ℚ := 1
  walkingTime : ℚ := 3 / 5
  distance : ℚ := 3 / 20
  lowRating : ℚ := 7 / 20
  uncertainty : ℚ := 4 / 5
  change : ℚ := 1 / 2
  monetaryCost : ℚ := 2 / 5
  deriving DecidableEq, Repr

structure PlanningPreferences where
  optimizationGoal : OptimizationGoal := .balanced
  travelStyle : TravelStyle := .balanced
  minimizeDistance : Bool := false
  minimizeWalking : Bool := false
  minimizeCost : Bool := false
  preferHighRating : Bool := false
  weights : ObjectiveWeights := {}
  deriving DecidableEq, Repr

structure PlanningTask where
  description : String
  locationName : Option String := none
  category : Option String := none
  serviceDurationMinutes : Nat := 0
  minServiceDurationMinutes : Option Nat := none
  earliestArrival : Option DateTime := none
  deadline : Option DateTime := none
  required : Bool := true
  minRating : Option ℚ := none
  maxCostYuan : Option ℚ := none
  requireOpen : Bool := true
  requireWheelchairAccessible : Bool := false
  appointmentTime : Option DateTime := none
  deriving DecidableEq, Repr

structure HardConstraints where
  latestReturnTime : Option DateTime := none
  maxWalkingMeters : Option ℚ := none
  maxTotalDurationMinutes : Option Nat := none
  maxTotalCostYuan : Option ℚ := none
  mustReturnToOrigin : Bool := false
  requiredTaskOrder : List Int := []
  maxDetourMeters : Option ℚ := none
  avoidAreas : List String := []
  mustPassAreas : List String := []
  allowedDistricts : List String := []
  wheelchairAccessible : Bool := false
  /-- `party.wheelchair_users` -/
  wheelchairUsers : Nat := 0
  transportBudgetYuan : Option ℚ := none
  diningBudgetYuan : Option ℚ := none
  ticketBudgetYuan : Option ℚ := none
  deriving DecidableEq, Repr

structure PlanningIntent where
  transportMode : TransportMode := .walking
  tasks : List PlanningTask
  preferences : PlanningPreferences := {}
  hard : HardConstraints := {}
  /-- `safety_buffer_minutes` of each uncertain constraint. -/
  safetyBuffers : List Nat := []
  deriving DecidableEq, Repr

structure RouteEdge where
  durationSeconds : ℚ
  distanceMeters : ℚ
  confidence : ℚ
  deriving DecidableEq, Repr

structure RouteMatrix where
  edges : List (List RouteEdge)
  deriving DecidableEq, Repr

/-- `edges[i][j]`; `none` is an `IndexError`. -/
def RouteMatrix.edge (matrix : RouteMatrix) (i j : Nat) : Option RouteEdge :=
  (matrix.edges[i]?).bind (·[j]?)

structure CandidateNode where
  taskIndex : Nat
  candidateRank : Nat
  matrixIndex : Nat
  rating : Option ℚ
  confidence : ℚ
  estimatedCostYuan : Option ℚ := none
  openNow : Option Bool := none
  wheelchairAccessible : Option Bool := none
  district : Option String := none
  deriving DecidableEq, Repr

structure ScoreBreakdown where
  travelTime : ℚ
  walkingTime : ℚ
  distance : ℚ
  lowRating : ℚ
  uncertainty : ℚ
  monetaryCost : ℚ
  change : ℚ
  total : ℚ
  deriving DecidableEq, Repr

end MapGo.Route
