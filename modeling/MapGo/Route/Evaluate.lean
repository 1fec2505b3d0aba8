import MapGo.Route.Schema

/-! Evaluation of one visiting order. A walk accumulates clock, totals and
conflicts stop by stop; constraints on the whole trip follow. The order is
feasible when no conflict was recorded; soft penalties are reported behind the
conflicts and only raise the score. -/
namespace MapGo.Route

/-- A reported conflict with the values its text shows; the last three are soft penalties. -/
inductive Conflict where
  | orderViolated
  | appointmentMissed (description : String) (cursor appointment : DateTime)
  | deadlineMissed (description : String) (cursor : DateTime) (buffered : Bool) (deadline : DateTime)
  | lowRating (description : String) (minRating : ℚ)
  | closed (description : String)
  | inaccessible (description : String)
  | districtNotAllowed (description : String)
  | avoidedArea (description : String)
  | overStopBudget (description : String)
  | overDuration (elapsed : ℚ) (limit : Nat)
  | lateReturn (cursor latest : DateTime)
  | overWalking (total limit : ℚ)
  | costUnverifiable
  | overBudget (total limit : ℚ)
  | districtsUnknown
  | areasMissing (areas : List String)
  | overDetour (detour limit : ℚ)
  | detourUnknown
  | categoryCostUnknown
  | categoryUnsplit

def Conflict.text : Conflict → String
  | .orderViolated => "方案违反了必须保持的任务先后顺序"
  | .appointmentMissed description cursor appointment =>
      "“" ++ description ++ "”预计 " ++ cursor.clock ++ " 到达，错过预约时间 " ++ appointment.clock
  | .deadlineMissed description cursor buffered deadline =>
      "“" ++ description ++ "”预计 " ++ cursor.clock ++ " 到达，超过截止时间" ++
        (if buffered then "（含不确定缓冲）" else "") ++ " " ++ deadline.clock
  | .lowRating description minRating =>
      "“" ++ description ++ "”没有满足最低评分 " ++ generalText minRating ++ " 的候选地点"
  | .closed description => "“" ++ description ++ "”候选地点当前未营业"
  | .inaccessible description => "“" ++ description ++ "”缺少可验证的无障碍信息"
  | .districtNotAllowed description => "“" ++ description ++ "”不在允许区域内"
  | .avoidedArea description => "“" ++ description ++ "”位于需要避开的区域"
  | .overStopBudget description => "“" ++ description ++ "”预计费用超过单站预算"
  | .overDuration elapsed limit =>
      "总行程约 " ++ fixedText 0 elapsed ++ " 分钟，超过上限 " ++ toString limit ++ " 分钟"
  | .lateReturn cursor latest => "预计 " ++ cursor.clock ++ " 完成，超过最晚返回时间 " ++ latest.clock
  | .overWalking total limit =>
      "步行约 " ++ fixedText 0 total ++ " 米，超过上限 " ++ fixedText 0 limit ++ " 米"
  | .costUnverifiable => "存在缺少价格来源的候选地点，无法验证总预算硬约束"
  | .overBudget total limit =>
      "预计费用 " ++ fixedText 2 total ++ " 元，超过总预算 " ++ fixedText 2 limit ++ " 元"
  | .districtsUnknown => "当前候选缺少行政区信息，无法验证必须经过区域"
  | .areasMissing areas => "方案未覆盖必须经过区域：" ++ "、".intercalate areas
  | .overDetour detour limit =>
      "绕行约 " ++ fixedText 0 detour ++ " 米，超过上限 " ++ fixedText 0 limit ++ " 米"
  | .detourUnknown => "缺少无绕行基准路线，最大绕行按软约束惩罚处理"
  | .categoryCostUnknown => "Provider 尚未返回分类费用，分类预算仅作软约束提示"
  | .categoryUnsplit => "分类预算缺少可靠拆分，已并入总费用软惩罚"

/-- What an evaluation is given besides the order and the selected candidates. -/
structure Context where
  departure : DateTime
  tasks : List PlanningTask
  matrix : RouteMatrix
  preferences : PlanningPreferences
  constraints : HardConstraints
  mode : TransportMode
  safetyBufferMinutes : Nat := 0
  previousOrder : List Nat := []
  baselineDistanceMeters : Option ℚ := none

/-- `timedelta(minutes=max(0, safety_buffer_minutes))` -/
def Context.buffer (ctx : Context) : Int := minutesDelta ctx.safetyBufferMinutes

/-- `_relative_order_satisfied`: the required items that occur keep their order. -/
def relativeOrderSatisfied (order : List Nat) (required : List Int) : Bool :=
  let places := order.map Int.ofNat
  let present := required.filter (· ∈ places)
  present = present.insertionSort (fun a b => places.idxOf a ≤ places.idxOf b)

/-- The loop variables of `evaluate_joint_order`. -/
structure Walk where
  cursor : DateTime
  previous : Nat
  arrivals : List DateTime
  departures : List DateTime
  conflicts : List Conflict
  selectedNodes : List CandidateNode
  totalDistance : ℚ
  totalSeconds : ℚ
  confidencePenalty : ℚ
  ratingPenalty : ℚ
  totalCost : ℚ
  costUnknown : Bool
  visitedDistricts : List String

/-- Arrival after waiting for the appointment and the earliest arrival. -/
def arrival (task : PlanningTask) (cursor : DateTime) : DateTime :=
  let cursor := match task.appointmentTime with
    | some appointment => if cursor.instant < appointment.instant then appointment else cursor
    | none => cursor
  match task.earliestArrival with
  | some earliest => if cursor.instant < earliest.instant then earliest else cursor
  | none => cursor

/-- The conflicts of one stop, reached at `cursor` before any waiting. -/
def stopConflicts (ctx : Context) (task : PlanningTask) (node : CandidateNode)
    (cursor : DateTime) : List Conflict :=
  let c := ctx.constraints
  let arrived := arrival task cursor
  let name := task.description
  let missedAppointment : List Conflict := match task.appointmentTime with
    | some appointment =>
        if appointment.instant < cursor.instant then [.appointmentMissed name cursor appointment]
        else []
    | none => []
  let missedDeadline : List Conflict := match task.deadline with
    | some deadline =>
        if (deadline.sub ctx.buffer).instant < arrived.instant then
          [.deadlineMissed name arrived (ctx.safetyBufferMinutes ≠ 0) (deadline.sub ctx.buffer)]
        else []
    | none => []
  let rating : List Conflict := match task.minRating with
    | some minRating =>
        if node.rating.all (· < minRating) then [.lowRating name minRating] else []
    | none => []
  let opening : List Conflict :=
    if task.requireOpen ∧ node.openNow = some false then [.closed name] else []
  let access : List Conflict :=
    if (task.requireWheelchairAccessible ∨ c.wheelchairAccessible ∨ 0 < c.wheelchairUsers) ∧
        node.wheelchairAccessible ≠ some true then [.inaccessible name]
    else []
  let allowed : List Conflict :=
    if c.allowedDistricts ≠ [] ∧ node.district.all (· ∉ c.allowedDistricts) then
      [.districtNotAllowed name]
    else []
  let avoided : List Conflict :=
    if node.district.any (fun district => district ≠ "" ∧ c.avoidAreas.any (contains district)) then
      [.avoidedArea name]
    else []
  let cost : List Conflict := match node.estimatedCostYuan, task.maxCostYuan with
    | some cost, some limit => if limit < cost then [.overStopBudget name] else []
    | _, _ => []
  [missedAppointment, missedDeadline, rating, opening, access, allowed, avoided, cost].flatten

/-- One iteration of the loop over the order. -/
def visit (ctx : Context) (selectedByTask : Nat → Option CandidateNode) (walk : Walk)
    (taskIndex : Nat) : Option Walk := do
  let node ← selectedByTask taskIndex
  let edge ← ctx.matrix.edge walk.previous node.matrixIndex
  let task ← ctx.tasks[taskIndex]?
  let cursor := walk.cursor.add (secondsDelta edge.durationSeconds)
  let arrived := arrival task cursor
  let left := arrived.add (minutesDelta
    (max task.serviceDurationMinutes (task.minServiceDurationMinutes.getD 0)))
  return {
    cursor := left
    previous := node.matrixIndex
    arrivals := walk.arrivals ++ [arrived]
    departures := walk.departures ++ [left]
    conflicts := walk.conflicts ++ stopConflicts ctx task node cursor
    selectedNodes := walk.selectedNodes ++ [node]
    totalDistance := walk.totalDistance + edge.distanceMeters
    totalSeconds := walk.totalSeconds + edge.durationSeconds
    confidencePenalty := walk.confidencePenalty + (1 - min edge.confidence node.confidence)
    ratingPenalty := walk.ratingPenalty + max 0 (5 - orDefault node.rating 3)
    totalCost := walk.totalCost + node.estimatedCostYuan.getD 0
    costUnknown := walk.costUnknown || node.estimatedCostYuan.isNone
    visitedDistricts := walk.visitedDistricts ++ (node.district.filter (· ≠ "")).toList }

def Walk.start (ctx : Context) (order : List Nat) : Walk where
  cursor := ctx.departure
  previous := 0
  arrivals := []
  departures := []
  conflicts :=
    if ctx.constraints.requiredTaskOrder ≠ [] ∧
        ¬ relativeOrderSatisfied order ctx.constraints.requiredTaskOrder then [.orderViolated]
    else []
  selectedNodes := []
  totalDistance := 0
  totalSeconds := 0
  confidencePenalty := 0
  ratingPenalty := 0
  totalCost := 0
  costUnknown := false
  visitedDistricts := []

/-- The leg back to the origin. -/
def returnToOrigin (ctx : Context) (walk : Walk) : Option Walk :=
  if ctx.constraints.mustReturnToOrigin ∧ walk.selectedNodes ≠ [] then do
    let edge ← ctx.matrix.edge walk.previous 0
    return { walk with
      totalSeconds := walk.totalSeconds + edge.durationSeconds
      totalDistance := walk.totalDistance + edge.distanceMeters
      cursor := walk.cursor.add (secondsDelta edge.durationSeconds)
      confidencePenalty := walk.confidencePenalty + (1 - edge.confidence) }
  else some walk

/-- The conflicts of the whole trip. -/
def tripConflicts (ctx : Context) (walk : Walk) : List Conflict :=
  let c := ctx.constraints
  let elapsed := walk.cursor.secondsSince ctx.departure / 60
  let duration : List Conflict := match c.maxTotalDurationMinutes with
    | some limit => if (limit : ℚ) < elapsed then [.overDuration elapsed limit] else []
    | none => []
  let latestReturn : List Conflict := match c.latestReturnTime with
    | some latest =>
        if (latest.sub ctx.buffer).instant < walk.cursor.instant then
          [.lateReturn walk.cursor (latest.sub ctx.buffer)]
        else []
    | none => []
  let walking : List Conflict := match c.maxWalkingMeters with
    | some limit =>
        if ctx.mode = .walking ∧ limit < walk.totalDistance then
          [.overWalking walk.totalDistance limit]
        else []
    | none => []
  let cost : List Conflict := match c.maxTotalCostYuan with
    | some limit =>
        if walk.costUnknown then [.costUnverifiable]
        else if limit < walk.totalCost then [.overBudget walk.totalCost limit]
        else []
    | none => []
  let areas : List Conflict :=
    if c.mustPassAreas = [] then []
    else if walk.visitedDistricts = [] then [.districtsUnknown]
    else
      let missing := c.mustPassAreas.filter fun area =>
        ¬ walk.visitedDistricts.any fun district => contains district area
      if missing = [] then [] else [.areasMissing missing]
  let detour : List Conflict := match c.maxDetourMeters, ctx.baselineDistanceMeters with
    | some limit, some baseline =>
        let detour := max 0 (walk.totalDistance - baseline)
        if limit < detour then [.overDetour detour limit] else []
    | _, _ => []
  [duration, latestReturn, walking, cost, areas, detour].flatten

def softPenalties (ctx : Context) (walk : Walk) : List Conflict :=
  let c := ctx.constraints
  (if c.maxDetourMeters.isSome ∧ ctx.baselineDistanceMeters.isNone then [.detourUnknown] else []) ++
  (if c.transportBudgetYuan.isSome ∨ c.diningBudgetYuan.isSome ∨ c.ticketBudgetYuan.isSome then
    [if walk.costUnknown then .categoryCostUnknown else .categoryUnsplit] else [])

/-- Pairs that the previous order has the other way round. -/
def disagreements (order previousOrder : List Nat) : Nat :=
  let shared := order.filter (· ∈ previousOrder)
  let before (previous : List Nat) (left right : Nat) : Bool :=
    previous.idxOf right < previous.idxOf left
  ((shared.tails.filterMap fun rest => rest.head?.map fun left =>
    (rest.tail.filter fun right => before previousOrder left right).length)).sum

def score (ctx : Context) (order : List Nat) (walk : Walk) : ScoreBreakdown :=
  let p := ctx.preferences
  let w := p.weights
  let relaxed : ℚ := if p.travelStyle = .relaxed then 3 / 2 else 1
  let change : ℚ := if ctx.previousOrder = [] then 0 else disagreements order ctx.previousOrder * 120
  let travelTime := walk.totalSeconds * w.travelTime
  let walkingTime := (if ctx.mode = .walking then walk.totalSeconds else 0) *
    (w.walkingTime * (if p.minimizeWalking then 2 else 1) * relaxed)
  let distance := walk.totalDistance / 10 *
    (w.distance * (if p.minimizeDistance then 2 else 1) * relaxed)
  let lowRating := walk.ratingPenalty * 600 * (w.lowRating * if p.preferHighRating then 2 else 1)
  let uncertainty := walk.confidencePenalty * 600 * w.uncertainty
  let monetaryCost := walk.totalCost * 60 * w.monetaryCost * if p.minimizeCost then 2 else 1
  let change := change * w.change
  { travelTime, walkingTime, distance, lowRating, uncertainty, monetaryCost, change
    total := travelTime + walkingTime + distance + lowRating + uncertainty + monetaryCost +
      change + 180 * (softPenalties ctx walk).length }

structure RouteEvaluation where
  order : List Nat
  selectedNodes : List CandidateNode
  arrivals : List DateTime
  departures : List DateTime
  totalDistance : ℚ
  totalTravelSeconds : ℚ
  feasible : Bool
  conflicts : List Conflict
  cost : ℚ
  score : ScoreBreakdown

/-- `evaluate_joint_order`; `none` is an `IndexError` or a `KeyError`. -/
def evaluateJointOrder (ctx : Context) (order : List Nat)
    (selectedByTask : Nat → Option CandidateNode) : Option RouteEvaluation := do
  let walk ← order.foldlM (visit ctx selectedByTask) (Walk.start ctx order)
  let walk ← returnToOrigin ctx walk
  let conflicts := walk.conflicts ++ tripConflicts ctx walk
  let breakdown := score ctx order walk
  return {
    order := order
    selectedNodes := walk.selectedNodes
    arrivals := walk.arrivals
    departures := walk.departures
    totalDistance := walk.totalDistance
    totalTravelSeconds := walk.totalSeconds
    feasible := conflicts.isEmpty
    conflicts := conflicts ++ softPenalties ctx walk
    cost := breakdown.total
    score := breakdown }

end MapGo.Route
