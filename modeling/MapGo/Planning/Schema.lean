import MapGo.Route.Schema

/-! The plan as reviewers read it and the result of a planning request. Every field of the plan
may be missing, as in its dumped form; reports carry the bound on soft adjustments. -/
namespace MapGo.Planning

open MapGo.Route (TransportMode TravelStyle)

/-- A time as it was sent: order is defined only between two of a kind. -/
inductive Stamp where
  | naive (instant : Instant)
  | aware (time : DateTime)
  deriving DecidableEq, Repr

/-- `_after`; `none` is a `TypeError`. -/
def Stamp.after : Stamp → Stamp → Option Bool
  | .naive left, .naive right => some (decide (right < left))
  | .aware left, .aware right => some (decide (right.instant < left.instant))
  | _, _ => none

inductive PlanStatus where
  | success | needClarification | infeasible
  deriving DecidableEq, Repr

inductive PlanningState where
  | needClarification | infeasible | planReady
  deriving DecidableEq, Repr

structure PlanPreferences where
  avoidHiking : Bool := false
  travelStyle : TravelStyle := .balanced
  minimizeWalking : Bool := false
  preferHighRating : Bool := false
  deriving DecidableEq, Repr

structure PlanConstraints where
  latestReturnTime : Option Stamp := none
  maxTotalDurationMinutes : Option ℚ := none
  maxTotalCostYuan : Option ℚ := none
  maxWalkingMeters : Option ℚ := none
  wheelchairAccessible : Bool := false
  elderly : Nat := 0
  children : Nat := 0
  wheelchairUsers : Nat := 0
  deriving DecidableEq, Repr

structure UncertainConstraint where
  field : String
  reason : String
  deriving DecidableEq, Repr

structure PlanIntent where
  transportMode : TransportMode := .walking
  preferences : PlanPreferences := {}
  hard : PlanConstraints := {}
  uncertain : List UncertainConstraint := []
  deriving DecidableEq, Repr

structure PlanPoi where
  id : Option String := none
  name : Option String := none
  address : Option String := none
  source : Option String := none
  rating : Option ℚ := none
  estimatedCostYuan : Option ℚ := none
  deriving DecidableEq, Repr

structure PlanTravel where
  distanceMeters : Option ℚ := none
  confidence : Option ℚ := none
  mode : Option TransportMode := none
  fallbackUsed : Bool := false
  deriving DecidableEq, Repr

structure PlanTask where
  description : Option String := none
  locationName : Option String := none
  category : Option String := none
  deadline : Option Stamp := none
  deriving DecidableEq, Repr

structure PlanStop where
  poi : PlanPoi := {}
  travel : PlanTravel := {}
  task : PlanTask := {}
  arrivalTime : Option Stamp := none
  departureTime : Option Stamp := none
  constraintSatisfied : Option Bool := none
  deriving DecidableEq, Repr

/-- A plan with the fields that reviews and confirmation gates read. -/
structure Plan where
  status : PlanStatus
  intent : PlanIntent := {}
  stops : List PlanStop := []
  explanation : Option String := none
  totalDistanceMeters : Option ℚ := none
  totalTravelSeconds : Option ℚ := none
  estimatedCostYuan : Option ℚ := none
  /-- The ratings of the candidates in `candidate_reviews`. -/
  candidateRatings : List (Option ℚ) := []
  deriving DecidableEq, Repr

inductive Severity where
  | info | warning | blocking
  deriving DecidableEq, Repr

structure ReviewFinding where
  code : String
  severity : Severity
  message : String
  evidenceRefs : List String := []
  deriving DecidableEq, Repr

inductive Verdict where
  | approved | approvedWithWarnings | needsClarification | retryWithSoftAdjustments
  deriving DecidableEq, Repr

structure CriticSoftAdjustments where
  travelTime : Option ℚ := none
  walkingTime : Option ℚ := none
  distance : Option ℚ := none
  lowRating : Option ℚ := none
  uncertainty : Option ℚ := none
  monetaryCost : Option ℚ := none
  deriving DecidableEq, Repr

def CriticSoftAdjustments.updates (a : CriticSoftAdjustments) : List (String × ℚ) :=
  [("travel_time", a.travelTime), ("walking_time", a.walkingTime), ("distance", a.distance),
    ("low_rating", a.lowRating), ("uncertainty", a.uncertainty),
    ("monetary_cost", a.monetaryCost)].filterMap fun (key, value) => value.map (key, ·)

structure RouteEvaluationSummary where
  distanceScore : ℚ
  timeScore : ℚ
  preferenceScore : ℚ
  finalScore : ℚ
  passed : Bool
  hardFailures : List String
  deriving DecidableEq, Repr

structure ReviewReport where
  verdict : Verdict
  summary : String
  findings : List ReviewFinding
  suggestedAdjustments : Option CriticSoftAdjustments := none
  routeEvaluation : Option RouteEvaluationSummary := none
  confidence : ℚ
  retryBoundary : verdict = .retryWithSoftAdjustments →
    ∃ adjustments, suggestedAdjustments = some adjustments ∧ adjustments.updates ≠ []
  softBoundary : verdict ≠ .retryWithSoftAdjustments → suggestedAdjustments = none
  deriving DecidableEq

inductive QuestionKind where
  | clarification | confirmation
  deriving DecidableEq, Repr

/-- A found place, as it is offered for a choice. -/
structure PoiCandidate where
  id : String
  name : String
  address : String := ""
  source : String := "unknown"
  rating : Option ℚ := none
  estimatedCostYuan : Option ℚ := none
  deriving DecidableEq, Repr

structure ClarificationQuestion where
  field : String
  reason : String
  question : String
  kind : QuestionKind := .clarification
  required : Bool := true
  candidates : List PoiCandidate := []
  deriving DecidableEq, Repr

structure AIPlanResult where
  plan : Plan
  planningState : PlanningState
  questions : List ClarificationQuestion := []
  warnings : List String := []
  criticReview : Option ReviewReport := none
  deriving DecidableEq

def AIPlanResult.status (result : AIPlanResult) : PlanStatus := result.plan.status

structure AIPlanRequest where
  /-- `human_confirmations` -/
  humanConfirmations : List (String × Bool) := []
  deriving DecidableEq, Repr

end MapGo.Planning
