import MapGo.Planning.Schema

/-! The deterministic evaluation of a route plan. Evidence and limits give blocking findings,
missed preferences a warning; the hard failures are the codes of the blocking findings. -/
namespace MapGo.Planning

open MapGo.Route (TransportMode TravelStyle)

def hikingTerms : List String :=
  ["爬山", "登山", "徒步", "山峰", "山岳", "登山步道", "hiking", "mountain trail"]

structure ExpectedRoutePreferences where
  avoidHiking : Option Bool := none
  travelStyle : Option TravelStyle := none
  minimizeWalking : Option Bool := none
  preferHighRating : Option Bool := none

structure RouteEvaluationPolicy where
  maxReasonableDistanceMeters : Option ℚ := none
  maxReasonableTravelSeconds : Option ℚ := none
  hardTimeLimitSeconds : Option ℚ := none
  relaxedMaxStops : Nat := 4
  relaxedMaxWalkingMeters : ℚ := 6000
  relaxedMaxTravelSeconds : ℚ := 14400
  minPreferredRating : ℚ := 21 / 5
  passScore : ℚ := 75
  expectedPreferences : ExpectedRoutePreferences := {}

structure RouteEvaluationFinding where
  code : String
  severity : Severity
  message : String
  deriving DecidableEq, Repr

structure AgentRouteEvaluation where
  distanceScore : ℚ
  timeScore : ℚ
  preferenceScore : ℚ
  finalScore : ℚ
  passed : Bool
  hardFailures : List String
  findings : List RouteEvaluationFinding

/-- `_bounded_score` -/
def boundedScore (actual : ℚ) : Option ℚ → ℚ
  | none => 100
  | some limit =>
      if actual ≤ limit then 100
      else if limit * 2 ≤ actual then 0
      else max 0 (100 * (2 - actual / limit))

/-- `str.casefold`, as far as it produces Latin letters: the long s, the Kelvin sign, the sharp s
and the ligatures of s and t fold to ASCII. -/
def casefold (text : String) : String :=
  String.ofList (text.toList.flatMap fun c =>
    match c.toNat with
    | 0x017F => ['s']
    | 0x212A => ['k']
    | 0x00DF | 0x1E9E => ['s', 's']
    | 0xFB05 | 0xFB06 => ['s', 't']
    | _ => [c.toLower])

/-- `_route_contains_hiking` -/
def routeContainsHiking (stops : List PlanStop) : Bool :=
  stops.any fun stop =>
    let text := casefold (" ".intercalate ([stop.poi.name, stop.poi.address, stop.task.description,
      stop.task.locationName, stop.task.category].map fun value => value.getD ""))
    hikingTerms.any fun term => contains text term

/-- `_expected_preferences_from_plan` -/
def expectedPreferencesFromPlan (plan : Plan) : ExpectedRoutePreferences :=
  let preferences := plan.intent.preferences
  { avoidHiking := if preferences.avoidHiking then some true else none
    travelStyle := if preferences.travelStyle = .balanced then none else some preferences.travelStyle
    minimizeWalking := if preferences.minimizeWalking then some true else none
    preferHighRating := if preferences.preferHighRating then some true else none }

def runtimeRoutePolicy (plan : Plan) : RouteEvaluationPolicy :=
  { expectedPreferences := expectedPreferencesFromPlan plan }

/-- `_number` -/
def number (value : Option ℚ) : ℚ := value.getD 0

def blocking (code message : String) : RouteEvaluationFinding := ⟨code, .blocking, message⟩

/-- A finding when the first time lies after the second, another when they cannot be compared. -/
def compareTimes (left right : Option Stamp) (invalid late : RouteEvaluationFinding) :
    List RouteEvaluationFinding :=
  match left, right with
  | some left, some right =>
      match left.after right with
      | none => [invalid]
      | some true => [late]
      | some false => []
  | _, _ => []

def timeEvidenceInvalid (message : String) : RouteEvaluationFinding :=
  blocking "time_evidence_invalid" message

/-- The findings of one stop, counted from 0. -/
def stopFindings (index : Nat) (stop : PlanStop) : List RouteEvaluationFinding :=
  (if stop.constraintSatisfied = some false then
    [blocking "stop_constraint_violated" ("第 " ++ toString (index + 1) ++ " 站标记为违反约束")]
  else []) ++
  compareTimes stop.arrivalTime stop.task.deadline (timeEvidenceInvalid "路线时间证据的时区不一致")
    (blocking "task_deadline_exceeded" ("第 " ++ toString (index + 1) ++ " 站超过截止时间"))

def poiIds (stops : List PlanStop) : List String := stops.map fun stop => stop.poi.id.getD ""

/-- Meters walked: all legs of a walking plan, else the legs marked as walked. -/
def walkingMeters (plan : Plan) : ℚ :=
  ((plan.stops.filter fun stop => plan.intent.transportMode = .walking ∨
    stop.travel.mode = some .walking).map fun stop => number stop.travel.distanceMeters).sum

/-- The findings on evidence and hard limits, in the order of their checks. -/
def limitFindings (plan : Plan) (policy : RouteEvaluationPolicy) : List RouteEvaluationFinding :=
  let stops := plan.stops
  let hard := plan.intent.hard
  let totalDistance := number plan.totalDistanceMeters
  let totalSeconds := number plan.totalTravelSeconds
  let present := (poiIds stops).filter (· ≠ "")
  let exceeds (limit : Option ℚ) (actual : ℚ) (finding : RouteEvaluationFinding) :=
    if limit.any (· < actual) then [finding] else []
  [if plan.status ≠ .success then [blocking "plan_not_successful" "方案不是可执行的成功状态"] else [],
    if stops = [] then [blocking "empty_route" "路线没有可验证站点"] else [],
    if "" ∈ poiIds stops then [blocking "poi_id_missing" "路线包含缺少 Provider ID 的地点"] else [],
    if ¬ present.Nodup then [blocking "duplicate_poi" "路线包含重复景点"] else [],
    (stops.mapIdx stopFindings).flatten,
    compareTimes (stops.getLast?.bind PlanStop.departureTime) hard.latestReturnTime
      (timeEvidenceInvalid "最晚返回时间的时区证据不一致")
      (blocking "latest_return_exceeded" "路线超过最晚返回时间"),
    exceeds (hard.maxTotalDurationMinutes.map (· * 60)) totalSeconds
      (blocking "duration_constraint_exceeded" "路线超过总时长硬限制"),
    exceeds policy.hardTimeLimitSeconds totalSeconds
      (blocking "time_limit_exceeded" "路线超过评测时间上限"),
    exceeds hard.maxTotalCostYuan (number plan.estimatedCostYuan)
      (blocking "cost_constraint_exceeded" "路线超过总费用硬限制"),
    exceeds hard.maxWalkingMeters (walkingMeters plan)
      (blocking "walking_constraint_exceeded" "路线超过步行距离硬限制"),
    if policy.maxReasonableDistanceMeters.any (· * 2 ≤ totalDistance) then
      [blocking "distance_excessive" "路线距离达到合理上限的两倍"]
    else if boundedScore totalDistance policy.maxReasonableDistanceMeters < 100 then
      [⟨"distance_above_target", .warning, "路线距离超过评测目标"⟩]
    else []].flatten

/-- Whether each expected preference is met. -/
def preferenceChecks (plan : Plan) (policy : RouteEvaluationPolicy) : List Bool :=
  let expected := policy.expectedPreferences
  let preferences := plan.intent.preferences
  let walked := walkingMeters plan
  let ratings := plan.stops.filterMap fun stop => stop.poi.rating
  [expected.avoidHiking.map fun wanted =>
      decide (preferences.avoidHiking = wanted) && (!wanted || !routeContainsHiking plan.stops),
    expected.travelStyle.map fun wanted =>
      decide (preferences.travelStyle = wanted) && (decide (wanted ≠ .relaxed) ||
        decide (plan.stops.length ≤ policy.relaxedMaxStops ∧
          walked ≤ policy.relaxedMaxWalkingMeters ∧
          number plan.totalTravelSeconds ≤ policy.relaxedMaxTravelSeconds)),
    expected.minimizeWalking.map fun wanted =>
      decide (preferences.minimizeWalking = wanted) &&
        (!wanted || decide (walked ≤ policy.relaxedMaxWalkingMeters)),
    expected.preferHighRating.map fun wanted =>
      decide (preferences.preferHighRating = wanted) && (!wanted || decide (ratings ≠ [] ∧
        policy.minPreferredRating ≤ ratings.sum / ratings.length))].filterMap id

/-- `round(q, 2)` -/
def roundCents (q : ℚ) : ℚ := roundHalfEven (q * 100) / 100

/-- The codes of the blocking findings, each at its first place. -/
def hardFailures (findings : List RouteEvaluationFinding) : List String :=
  findings.foldl (fun codes finding =>
    if finding.severity = .blocking ∧ finding.code ∉ codes then codes ++ [finding.code] else codes) []

def evaluateRoutePlan (plan : Plan) (policy : RouteEvaluationPolicy) : AgentRouteEvaluation :=
  let distanceScore :=
    boundedScore (number plan.totalDistanceMeters) policy.maxReasonableDistanceMeters
  let timeScore := boundedScore (number plan.totalTravelSeconds) policy.maxReasonableTravelSeconds
  let preferenceScore : ℚ := if (preferenceChecks plan policy).all id then 100 else 0
  let findings := limitFindings plan policy ++
    if preferenceScore < 100 then
      [⟨"preference_mismatch", .warning, "路线行为未完全符合用户软偏好"⟩]
    else []
  let failures := hardFailures findings
  let weighted := distanceScore * (2 / 5) + timeScore * (3 / 10) + preferenceScore * (3 / 10)
  let finalScore := if failures = [] then roundCents weighted else 0
  { distanceScore := roundCents distanceScore
    timeScore := roundCents timeScore
    preferenceScore := roundCents preferenceScore
    finalScore := finalScore
    passed := decide (failures = [] ∧ policy.passScore ≤ finalScore)
    hardFailures := failures
    findings := findings }

theorem hardFailures_eq_nil {findings : List RouteEvaluationFinding} :
    hardFailures findings = [] ↔ ∀ finding ∈ findings, finding.severity ≠ .blocking := by
  have grows (codes : List String) : findings.foldl (fun codes finding =>
      if finding.severity = .blocking ∧ finding.code ∉ codes then codes ++ [finding.code]
      else codes) codes = [] ↔ codes = [] ∧ ∀ finding ∈ findings, finding.severity ≠ .blocking := by
    induction findings generalizing codes with
    | nil => simp
    | cons finding rest ih =>
        rw [List.foldl_cons, ih, List.forall_mem_cons]
        split
        · rename_i new
          simp [new.1]
        · rename_i old
          constructor
          · rintro ⟨rfl, calm⟩
            exact ⟨rfl, fun block => old ⟨block, by simp⟩, calm⟩
          · rintro ⟨rfl, -, calm⟩
            exact ⟨rfl, calm⟩
  rw [hardFailures, grows]
  simp

theorem evaluateRoutePlan_hardFailures {plan : Plan} {policy : RouteEvaluationPolicy} :
    (evaluateRoutePlan plan policy).hardFailures ≠ [] ↔
      ∃ finding ∈ (evaluateRoutePlan plan policy).findings, finding.severity = .blocking := by
  have calm := @hardFailures_eq_nil (evaluateRoutePlan plan policy).findings
  have same : (evaluateRoutePlan plan policy).hardFailures =
      hardFailures (evaluateRoutePlan plan policy).findings := rfl
  rw [same, ne_eq, calm]
  push Not
  rfl

end MapGo.Planning
