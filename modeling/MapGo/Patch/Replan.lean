import MapGo.Patch.Structure
import MapGo.Route.Optimize

/-! Generation of a pending replan patch: the remaining stops, substitutes for
closed and outdoor ones, the solved alternatives and the operations that encode
the chosen one. Rows belong to one planning run, in the order of their insertion. -/
namespace MapGo.Patch

open MapGo.ListEdit MapGo.Route

structure Weather where
  precipitationProbability : Option ℚ := none
  weatherCode : Option Int := none
  deriving DecidableEq, Repr

structure EventPayload where
  closedPoiIds : List String := []
  closedPoiId : Option String := none
  reason : Option String := none
  outdoorStopIds : List String := []
  allowTransportSwitch : Bool := false
  deriving DecidableEq, Repr

structure PendingReplanRequest where
  currentLocation : Coordinate
  currentTime : DateTime
  completedStopIds : List String := []
  reason : String := "动态事件触发重规划"
  sourceEventId : Option Nat := none
  eventType : Option String := none
  eventPayload : EventPayload := {}
  weather : Option Weather := none

inductive ReplacementReason where
  | weatherIndoor | poiClosed
  deriving DecidableEq, Repr

structure ReplacementRecord where
  sourceStopId : String
  replacementStopId : String
  reason : ReplacementReason
  deriving DecidableEq, Repr

/-- One solved option as it is reported. -/
structure Alternative where
  label : String
  transportMode : TransportMode
  dropOptional : Bool
  feasible : Bool
  totalTravelSeconds : ℚ
  totalDistanceMeters : ℚ
  conflicts : List String
  algorithm : String
  stopIds : List String
  deriving DecidableEq, Repr

structure ImpactBefore where
  planVersion : Option Int := none
  totalTravelSeconds : Option ℚ := none
  totalDistanceMeters : Option ℚ := none
  estimatedCostYuan : Option ℚ := none
  transportMode : Option TransportMode := none
  deriving DecidableEq, Repr

structure ImpactAfter where
  totalTravelSeconds : Option ℚ := none
  totalDistanceMeters : Option ℚ := none
  estimatedCostYuan : Option ℚ := none
  transportMode : Option TransportMode := none
  feasible : Option Bool := none
  constraintConflicts : List String := []
  deriving DecidableEq, Repr

structure ImpactChanges where
  replacements : List ReplacementRecord := []
  droppedOptional : Option Bool := none
  completedStopIds : List String := []
  deriving DecidableEq, Repr

structure ReplanContext where
  origin : Option Coordinate := none
  departureTime : Option DateTime := none
  deriving DecidableEq, Repr

inductive Verdict where
  | approved | approvedWithWarnings | blocked
  deriving DecidableEq, Repr

inductive RiskLevel where
  | low | medium | high | critical
  deriving DecidableEq, Repr

structure DynamicPatchReview where
  verdict : Verdict
  riskLevel : RiskLevel
  requiresConfirmation : Bool
  findings : List String
  checkedBaseVersion : Nat
  operationCount : Nat
  deriving DecidableEq, Repr

structure Impact where
  sourceEventId : Option Nat := none
  eventType : Option String := none
  weather : Option Weather := none
  before : Option ImpactBefore := none
  after : Option ImpactAfter := none
  changes : Option ImpactChanges := none
  algorithm : Option String := none
  alternatives : List Alternative := []
  replanContext : Option ReplanContext := none
  criticReview : Option DynamicPatchReview := none
  requiresConfirmation : Option Bool := none
  autoApplyOptIn : Option Bool := none
  deriving DecidableEq, Repr

/-- A row of `plan_versions`. -/
structure PlanVersion where
  version : Nat
  snapshot : Snapshot
  changeReason : String
  deriving DecidableEq, Repr

inductive PatchStatus where
  | pending | accepted | rejected | blocked
  deriving DecidableEq, Repr

/-- A row of `plan_patches`. -/
structure PlanPatch where
  id : Nat
  baseVersion : Nat
  operations : List Operation
  reason : String
  impact : Impact
  status : PatchStatus
  deriving DecidableEq, Repr

inductive TripState where
  | idle | discovering | clarifying | planning | planReady | activeTrip | paused | offRoute
  | atRisk | replanning | completed | cancelled
  deriving DecidableEq, Repr

/-- A row of `trip_sessions` with its context. -/
structure TripSession where
  id : Nat
  state : TripState
  currentPlanVersion : Nat
  replanCount : Nat := 0
  autoApplyLowRiskPatches : Bool := false
  deriving DecidableEq, Repr

/-- `none` is a provider error. -/
structure MapProvider where
  searchPoi : String → Coordinate → Option String → Option (List Poi)
  routeMatrix : List Coordinate → TransportMode → Option RouteMatrix

def isOutdoor (stop : Stop) (explicitIds : List String) : Bool :=
  if stop.poi.id ∈ explicitIds then true
  else match stop.poi.isOutdoor with
    | some outdoor => outdoor
    | none =>
        let text := (" ".intercalate [stop.poi.name, stop.task.description,
          stop.task.locationName.getD "", stop.task.category.getD ""]).toLower
        if ["室内", "商场", "博物馆", "美术馆", "展馆", "影院", "咖啡"].any (contains text) then false
        else ["公园", "园林", "徒步", "户外", "广场", "山", "湖", "动物园"].any (contains text)

def weatherRequiresIndoor (weather : Option Weather) : Bool :=
  match weather with
  | none => false
  | some weather =>
      50 ≤ weather.precipitationProbability.getD 0 ∨ 80 ≤ weather.weatherCode.getD 0

def closedIds (eventType : Option String) (payload : EventPayload) (remaining : List Stop) :
    List String :=
  let named := payload.closedPoiIds ++ (payload.closedPoiId.filter (· ≠ "")).toList
  let first := (remaining.head?.map fun stop => stop.poi.id).toList
  let closed := if eventType = some "PoiStatusChanged" ∧ named = [] then first else named
  let reason := (payload.reason.getD "").toLower
  if ["关闭", "闭馆", "closed", "close"].any (contains reason) ∧ closed = [] then first else closed

/-- `a or b or c or d`, with the last operand whatever it is. -/
def searchBase (stop : Stop) : String :=
  (([stop.task.category, stop.task.locationName, some stop.task.description].filterMap id).find?
    (· ≠ "")).getD stop.poi.name

/-- `_replacement_candidates`; the outer `none` is a provider error. -/
def replacementCandidates (provider : MapProvider) (stop : Stop) (currentLocation : Coordinate)
    (indoor : Bool) : Option (Option Stop) := do
  let keyword := searchBase stop ++ " " ++ (if indoor then "室内" else "替代")
  let candidates ← provider.searchPoi keyword currentLocation stop.poi.district
  return (candidates.find? (·.id ≠ stop.poi.id)).map fun poi =>
    { stop with poi := poi, candidateRank := 0 }

/-- A remaining stop under the id it has in the base plan. -/
structure Item where
  sourceId : String
  stop : Stop
  deriving DecidableEq, Repr

def remainingItems (stops : List Stop) (completed : List String) : List Item :=
  (stops.filter (·.poi.id ∉ completed)).map fun stop => ⟨stop.poi.id, stop⟩

/-- One turn of the replacement loop. -/
def substitute (provider : MapProvider) (request : PendingReplanRequest) (closed : List String)
    (item : Item) : Option (Item × Option ReplacementRecord) := do
  let indoorsNeeded := weatherRequiresIndoor request.weather &&
    isOutdoor item.stop request.eventPayload.outdoorStopIds
  if item.sourceId ∉ closed ∧ ¬ indoorsNeeded then some (item, none)
  else
    match ← replacementCandidates provider item.stop request.currentLocation indoorsNeeded with
    | none => some (item, none)
    | some replacement =>
        some (⟨item.sourceId, replacement⟩, some ⟨item.sourceId, replacement.poi.id,
          if indoorsNeeded then .weatherIndoor else .poiClosed⟩)

structure Solved where
  evaluation : RouteEvaluation
  algorithm : String
  active : List Item
  mode : TransportMode
  dropOptional : Bool

/-- The stops of an attempt; `none` skips it. -/
def activeItems (items : List Item) (dropOptional : Bool) : Option (List Item) :=
  if dropOptional then
    let active := items.filter fun item => item.stop.task.required
    if active.length = items.length ∨ active = [] then none else some active
  else some items

/-- The attempts in the order of the two loops; no more than four are made. -/
def attempts (base : TransportMode) (items : List Item) :
    List (TransportMode × Bool × List Item) :=
  let modes := base :: TransportMode.all.filter (· ≠ base)
  (modes.flatMap fun mode => [false, true].filterMap fun dropOptional =>
    (activeItems items dropOptional).map fun active => (mode, dropOptional, active)).take 4

def solveAttempt (solver : RoutingSolver) (provider : MapProvider)
    (request : PendingReplanRequest) (mode : TransportMode) (dropOptional : Bool)
    (active : List Item) : Option Solved := do
  let points := request.currentLocation :: active.map fun item => item.stop.poi.location
  let matrix ← provider.routeMatrix points mode
  let (evaluation, algorithm) ←
    optimizeRoute solver request.currentTime (active.map fun item => item.stop.task) matrix
  return { evaluation, algorithm, active, mode, dropOptional }

def Solved.ordered (solved : Solved) : List Item :=
  solved.evaluation.order.filterMap fun index => solved.active[index]?

def Solved.alternative (solved : Solved) (index : Nat) : Alternative where
  label := "方案" ++ String.singleton (Char.ofNat (65 + index))
  transportMode := solved.mode
  dropOptional := solved.dropOptional
  feasible := solved.evaluation.feasible
  totalTravelSeconds := solved.evaluation.totalTravelSeconds
  totalDistanceMeters := solved.evaluation.totalDistance
  conflicts := solved.evaluation.conflicts.map Conflict.text
  algorithm := solved.algorithm
  stopIds := solved.ordered.map fun item => item.stop.poi.id

def switchRequested (request : PendingReplanRequest) : Bool :=
  request.eventType ∈
      [some "ScheduleDelayDetected", some "TrafficChanged", some "DeadlineRiskDetected"] ∨
    request.eventPayload.allowTransportSwitch = true

/-- `min(solved, key=total_travel_seconds)`: the first least element. -/
def fastest : List Solved → Option Solved
  | [] => none
  | first :: rest => some (rest.foldl (fun kept item =>
      if item.evaluation.totalTravelSeconds < kept.evaluation.totalTravelSeconds then item
      else kept) first)

def choose (base : TransportMode) (request : PendingReplanRequest) (solved : List Solved) :
    Option Solved :=
  match solved.find? (fun entry => entry.mode = base ∧ ¬ entry.dropOptional) with
  | some preferred => if switchRequested request then fastest solved else some preferred
  | none => fastest solved

/-! ### Encoding -/

def removeOperations (stops : List Stop) (activeIds : List String) : List Operation :=
  (stops.filter (·.poi.id ∉ activeIds)).map fun stop => .removeStop (some stop.poi.id)

def moveOperations (working : List String) (ordered : List Item) : List Operation :=
  (arrange 0 working (ordered.map Item.sourceId)).map fun (source, target) =>
    .moveStop (some source) (some target)

/-- The stop as a `replacement_stop`. -/
def Stop.asReplacement (stop : Stop) : Replacement :=
  { stop with task := some stop.task, poi := some stop.poi }

def replaceOperations (records : List ReplacementRecord) (ordered : List Item) :
    List Operation :=
  (ordered.filter fun item => records.any (·.sourceStopId = item.sourceId)).map fun item =>
    .replaceStop (some item.sourceId) (some item.stop.asReplacement)

/-- The operations that turn the stops of the base plan into the ordered items. -/
def structureOperations (stops : List Stop) (records : List ReplacementRecord)
    (active ordered : List Item) : List Operation :=
  let activeIds := active.map Item.sourceId
  let working := (stops.filter (·.poi.id ∈ activeIds)).map fun stop => stop.poi.id
  removeOperations stops activeIds ++ (moveOperations working ordered ++
    replaceOperations records ordered)

/-- The switches of transport mode and departure time behind them. -/
def switchOperations (base chosen : TransportMode) (departure current : DateTime) :
    List Operation :=
  (if chosen ≠ base then [.changeTransportMode (some chosen)] else []) ++
  (if 60 ≤ |current.secondsSince departure| then [.changeDepartureTime (.aware current)] else [])

def estimatedCost (stops : List Stop) : ℚ :=
  (stops.map fun stop => stop.poi.estimatedCostYuan.getD 0).sum

def replanImpact (trip : TripSession) (request : PendingReplanRequest) (snapshot : Snapshot)
    (completed : List String) (records : List ReplacementRecord) (options : List Alternative)
    (chosen : Solved) : Impact where
  sourceEventId := request.sourceEventId
  eventType := request.eventType
  weather := request.weather
  before := some
    { planVersion := some trip.currentPlanVersion
      totalTravelSeconds := snapshot.totalTravelSeconds
      totalDistanceMeters := snapshot.totalDistanceMeters
      estimatedCostYuan := some (estimatedCost snapshot.stops)
      transportMode := some snapshot.intent.transportMode }
  after := some
    { totalTravelSeconds := some chosen.evaluation.totalTravelSeconds
      totalDistanceMeters := some chosen.evaluation.totalDistance
      estimatedCostYuan := some (estimatedCost (chosen.ordered.map Item.stop))
      transportMode := some chosen.mode
      feasible := some chosen.evaluation.feasible
      constraintConflicts := chosen.evaluation.conflicts.map Conflict.text }
  changes := some
    { replacements := records
      droppedOptional := some chosen.dropOptional
      completedStopIds := completed.dedup.insertionSort (· ≤ ·) }
  algorithm := some chosen.algorithm
  alternatives := options
  replanContext := some
    { origin := some request.currentLocation, departureTime := some request.currentTime }

/-- What `create_pending_replan` returns. -/
inductive Replanned where
  | budgetExceeded
  | deduplicated (patchId : Nat) (impact : Impact)
  | noFeasibleReplan (alternatives : List Alternative) (replacements : List ReplacementRecord)
  | stillFeasible (impact : Impact) (alternatives : List Alternative)
  | created (operations : List Operation) (impact : Impact) (alternatives : List Alternative)

/-- The pending patch that an earlier delivery of the event has left. -/
def pendingDuplicate (patches : List PlanPatch) (trip : TripSession)
    (request : PendingReplanRequest) : Option PlanPatch :=
  match request.sourceEventId with
  | none => none
  | some event => (patches.filter fun patch =>
      patch.baseVersion = trip.currentPlanVersion ∧ patch.status = .pending).find?
        fun patch => patch.impact.sourceEventId = some event

/-- The solved options and the choice among the feasible ones. -/
def replanSnapshot (solver : RoutingSolver) (provider : MapProvider) (trip : TripSession)
    (request : PendingReplanRequest) (snapshot : Snapshot) : Except Failure Replanned := do
  let completed := request.completedStopIds
  let remaining := remainingItems snapshot.stops completed
  if remaining = [] then
    .error (.app ⟨409, "NO_REMAINING_STOPS", "没有需要重规划的剩余站点"⟩)
  else
    let closed := closedIds request.eventType request.eventPayload (remaining.map Item.stop)
    let substituted ← orRaise (remaining.mapM (substitute provider request closed))
    let items := substituted.map Prod.fst
    let records := substituted.filterMap Prod.snd
    let base := snapshot.intent.transportMode
    let options ← orRaise ((attempts base items).mapM fun (mode, dropOptional, active) =>
      solveAttempt solver provider request mode dropOptional active)
    let alternatives := options.zipIdx.map fun (solved, index) => solved.alternative index
    match choose base request (options.filter (·.evaluation.feasible)) with
    | none => .ok (.noFeasibleReplan alternatives records)
    | some chosen =>
        let departure ← orRaise snapshot.departureTime
        let operations :=
          structureOperations snapshot.stops records chosen.active chosen.ordered ++
            switchOperations base chosen.mode departure request.currentTime
        let impact := replanImpact trip request snapshot completed records alternatives chosen
        if operations = [] then .ok (.stillFeasible impact alternatives)
        else .ok (.created operations impact alternatives)

def createPendingReplan (solver : RoutingSolver) (maxReplansPerTrip : Nat)
    (provider : MapProvider) (versions : List PlanVersion) (patches : List PlanPatch)
    (trip : TripSession) (request : PendingReplanRequest) : Except Failure Replanned :=
  if maxReplansPerTrip ≤ trip.replanCount then .ok .budgetExceeded
  else
    match versions.find? (·.version = trip.currentPlanVersion) with
    | none => .error (.app ⟨409, "PLAN_VERSION_MISSING", "当前正式计划版本不存在"⟩)
    | some version =>
        match pendingDuplicate patches trip request with
        | some patch => .ok (.deduplicated patch.id patch.impact)
        | none => replanSnapshot solver provider trip request version.snapshot

end MapGo.Patch
